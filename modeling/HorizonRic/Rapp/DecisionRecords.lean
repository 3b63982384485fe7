import HorizonRic.Rapp.Pipeline
import HorizonRic.Shield.Soundness

/-!
What `process_event` leaves behind: the PUT is attempted for certified decisions only,
and a decision has at most one row, exactly one where its result is not "accepted but
unaudited".
-/
namespace HorizonRic.Rapp

open Py Io Evidence Policy

/-- The rows of one decision. -/
def Ledger.rowsOf (l : Ledger) (decisionId : String) : List DecisionRecord :=
  l.rows.filter fun row => row.decisionId = decisionId

/-- The flags of the row are those of the result; an absent flag is false. -/
structure Agrees (row : DecisionRecord) (r : PipelineResult) : Prop where
  blocked : Dict.getD row.chosenAction "emit_blocked" (.bool false) = .bool r.blocked
  dryRun : Dict.getD row.chosenAction "dry_run" (.bool false) = .bool r.dryRun
  emitFailed : Dict.getD row.chosenAction "emit_failed" (.bool false) = .bool r.emitFailed

/-- What a branch does with the row of its decision. -/
structure Recorded (decisionId : String) (l : Ledger) (outcome : Except PyErr PipelineResult)
    (l' : Ledger) : Prop where
  rows : l'.rows = l.rows ∨ ∃ row, l'.rows = l.rows ++ [row] ∧ row.decisionId = decisionId
  returned : ∀ r, outcome = .ok r → r.evidencePersistFailed = false →
    ∃ row, l'.rows = l.rows ++ [row] ∧ row.decisionId = decisionId ∧ Agrees row r

/-- What a PUT needs. -/
structure Emittable (m : Moment) (d : Decision) : Prop where
  safe : d.certificate.safe = true
  free : d.certificate.emitBlocked = false
  guarded : d.chainFailures = []
  power : ∃ q, d.safeTx = some (.fin q) ∧ minViableTxPowerDbm ≤ q
  live : envTruthy m.dryRun = false

section
variable {store : EvidenceSink} {record : DecisionRecord} {l l' : Ledger} {r : PipelineResult}

theorem append_puts (store : EvidenceSink) (record : DecisionRecord) (l : Ledger) :
    (store.append record l).2.puts = l.puts := by
  unfold EvidenceSink.append
  split <;> rfl

theorem append_rows (store : EvidenceSink) (record : DecisionRecord) (l : Ledger) :
    (store.append record l).2.rows = l.rows ∨
      (store.append record l).2.rows = l.rows ++ [stamp store.scope record] := by
  unfold EvidenceSink.append
  split
  · exact Or.inl rfl
  · exact Or.inr rfl

theorem Agrees.stamped (agrees : Agrees record r) (scope : Option String) :
    Agrees (stamp scope record) r := by
  have same := (stamp_kept scope record).2
  constructor
  · rw [same]
    exact agrees.blocked
  · rw [same]
    exact agrees.dryRun
  · rw [same]
    exact agrees.emitFailed

theorem recorded_of_row {decisionId : String}
    (row : l'.rows = l.rows ++ [stamp store.scope record]) (own : record.decisionId = decisionId)
    (agrees : Agrees record r) :
    Recorded decisionId l (.ok r) l' := by
  have stored : (stamp store.scope record).decisionId = decisionId := by
    rw [(stamp_kept _ _).1, own]
  constructor
  · exact Or.inr ⟨_, row, stored⟩
  · intro r' same _
    cases same
    exact ⟨_, row, stored, agrees.stamped _⟩

/-- Nothing that agrees with a row is returned. -/
theorem recorded_of_rows {decisionId : String} {outcome : Except PyErr PipelineResult}
    (rows : l'.rows = l.rows ∨ ∃ row, l'.rows = l.rows ++ [row] ∧ row.decisionId = decisionId)
    (unreturned : ∀ r, outcome = .ok r → r.evidencePersistFailed = true) :
    Recorded decisionId l outcome l' where
  rows := rows
  returned := by
    intro r same persisted
    rw [unreturned r same] at persisted
    cases persisted

theorem retried_rows (store : EvidenceSink) (record : DecisionRecord) (key : String)
    (value : Value) (l : Ledger) :
    (store.append (flag record key value) l).2.rows = l.rows ∨
      ∃ row, (store.append (flag record key value) l).2.rows = l.rows ++ [row] ∧
        row.decisionId = record.decisionId := by
  rcases append_rows store (flag record key value) l with same | row
  · exact Or.inl same
  · exact Or.inr ⟨_, row, (stamp_kept _ _).1⟩

end

namespace DecisionPipeline
variable (pl : DecisionPipeline) (m : Moment) (event : TelemetryEvent) {d : Decision}

/-! One lemma for each branch. -/

section
variable (plain : Agrees d.record (unshipped m event d)) (l : Ledger)
include plain

theorem refuse_recorded :
    Recorded d.record.decisionId l (pl.refuse m event d l).1 (pl.refuse m event d l).2 := by
  unfold refuse
  dsimp only
  split
  · rename_i raised
    exact recorded_of_rows (Or.inl (append_error raised).1) (by simp)
  · rename_i appended
    apply recorded_of_row (append_ok appended).1 rfl
    constructor
    · simp [flag, Dict.getD_set_ne]
    · simpa [flag, Dict.getD_set_ne] using plain.dryRun
    · simpa [flag, Dict.getD_set_ne] using plain.emitFailed

theorem suppress_recorded :
    Recorded d.record.decisionId l (pl.suppress m event d l).1 (pl.suppress m event d l).2 := by
  unfold suppress
  split
  · rename_i raised
    exact recorded_of_rows (Or.inl (append_error raised).1) (by simp)
  · rename_i appended
    apply recorded_of_row (append_ok appended).1 rfl
    constructor
    · simpa [flag, Dict.getD_set_ne] using plain.blocked
    · simp [flag]
    · simpa [flag, Dict.getD_set_ne] using plain.emitFailed

theorem emitFailed_recorded (status : Option Int) :
    Recorded d.record.decisionId l (pl.emitFailed m event d status l).1
      (pl.emitFailed m event d status l).2 := by
  unfold emitFailed
  split
  · rename_i raised
    exact recorded_of_rows (Or.inl (append_error raised).1) (by simp)
  · rename_i appended
    apply recorded_of_row (append_ok appended).1 rfl
    constructor
    · simpa [flag, Dict.getD_set_ne] using plain.blocked
    · simpa [flag, Dict.getD_set_ne] using plain.dryRun
    · simp [flag]

end

/-- The poll leaves the ledger alone, and a result carries none of the flags. -/
theorem accepted_cases (policyId : String) (status : Int) (persistFailed : Bool) (l : Ledger) :
    (pl.accepted m event d policyId status persistFailed l).2 = l ∧
      ∀ r, (pl.accepted m event d policyId status persistFailed l).1 = .ok r →
        r.evidencePersistFailed = persistFailed ∧
          ∀ row, Agrees row (unshipped m event d) → Agrees row r := by
  unfold accepted
  split
  · exact ⟨rfl, by simp⟩
  · refine ⟨rfl, ?_⟩
    intro r same
    cases same
    refine ⟨rfl, ?_⟩
    intro row plain
    exact ⟨plain.blocked, plain.dryRun, plain.emitFailed⟩

theorem emit_recorded (plain : Agrees d.record (unshipped m event d)) (l : Ledger) :
    Recorded d.record.decisionId l (pl.emit m event d l).1 (pl.emit m event d l).2 := by
  unfold emit
  cases sent : pl.a1.emitPolicy pl.store d.policyType d.payload m.policyId d.record
      d.certificate l with
  | mk answer after =>
    rcases emitPolicy_rows sent with ⟨⟨policyId, status⟩, rfl, row⟩ | ⟨e, rfl, same⟩
    · obtain ⟨kept, returned⟩ := accepted_cases pl m event (d := d) policyId status false after
      dsimp only
      rw [kept]
      cases outcome : (pl.accepted m event d policyId status false after).1 with
      | error e => exact recorded_of_rows (Or.inr ⟨_, row, (stamp_kept _ _).1⟩) (by simp)
      | ok r => exact recorded_of_row row rfl ((returned r outcome).2 _ plain)
    · cases e with
      | evidencePersist policyId status =>
        dsimp only
        have retried := retried_rows pl.store d.record "evidence_persist_failed" (.bool true) after
        rw [same] at retried
        obtain ⟨kept, returned⟩ := accepted_cases pl m event (d := d) policyId status true
          (pl.store.append (flag d.record "evidence_persist_failed" (.bool true)) after).2
        rw [kept]
        exact recorded_of_rows retried fun r outcome => (returned r outcome).1
      | httpError status =>
        have failed := emitFailed_recorded pl m event plain after status
        exact ⟨same ▸ failed.rows, same ▸ failed.returned⟩
      | circuitBreakerError =>
        have failed := emitFailed_recorded pl m event plain after none
        exact ⟨same ▸ failed.rows, same ▸ failed.returned⟩
      | other err =>
        have retried := retried_rows pl.store d.record "emit_failed" (.bool true) after
        rw [same] at retried
        exact recorded_of_rows retried (by simp)

theorem dispatch_recorded (plain : Agrees d.record (unshipped m event d)) (l : Ledger) :
    Recorded d.record.decisionId l (pl.dispatch m event d l).1 (pl.dispatch m event d l).2 := by
  unfold dispatch
  split
  · exact refuse_recorded pl m event plain l
  · split
    · exact suppress_recorded pl m event plain l
    · exact emit_recorded pl m event plain l

/-- Only the emit attempts a PUT. -/
theorem dispatch_puts (l : Ledger) (attempted : (pl.dispatch m event d l).2.puts ≠ l.puts) :
    d.failures = [] ∧ d.certificate.emitBlocked = false ∧ envTruthy m.dryRun = false := by
  have keeps : ∀ record answer after, pl.store.append record l = (answer, after) →
      after.puts = l.puts := by
    intro record answer after appended
    have kept := append_puts pl.store record l
    rwa [appended] at kept
  unfold dispatch at attempted
  split at attempted
  · exfalso
    unfold refuse at attempted
    dsimp only at attempted
    split at attempted <;> exact attempted (keeps _ _ _ ‹_›)
  · rename_i passed
    split at attempted
    · exfalso
      unfold suppress at attempted
      split at attempted <;> exact attempted (keeps _ _ _ ‹_›)
    · rename_i live
      simpa [and_assoc] using And.intro passed live

/-! What a decision takes from the Shield and the guards. -/

structure Decided (d : Decision) (disposition : ShieldDisposition) : Prop where
  id : d.record.decisionId = m.decisionId
  planned : ∃ r, d.policyType = choose r
  action : d.record.chosenAction =
    chosenAction event d.policyType d.payload disposition.safeAction d.certificate
  disposed : pl.shield.dispose pl.env.py (shieldAction pl.cfg d.policyType d.payload) (some [])
    (disposeArgs m) = .ok disposition
  certificate : d.certificate = pl.signed disposition.certificate
  guards : ∃ audit, d.chainFailures = runGuardChain pl.env.py (some d.certificate) true
    m.elapsedMs audit pl.cfg.decisionBudgetMs
  power : pl.safeTxVal disposition.safeAction = .ok d.safeTx
  failures : d.failures = d.chainFailures ++ (pl.hardwareFloor d.safeTx).toList

theorem decide_decided (decided : pl.decide m event = .ok d) :
    ∃ disposition, Decided pl m event d disposition := by
  obtain ⟨hash, _, decided⟩ := bind_eq_ok decided
  obtain ⟨r, _, decided⟩ := bind_eq_ok decided
  obtain ⟨payload, _, decided⟩ := bind_eq_ok decided
  obtain ⟨alternatives, _, decided⟩ := bind_eq_ok decided
  obtain ⟨disposition, disposed, decided⟩ := bind_eq_ok decided
  obtain ⟨corrections, _, decided⟩ := bind_eq_ok decided
  obtain ⟨safeTx, power, decided⟩ := bind_eq_ok decided
  obtain ⟨outcome, _, decided⟩ := bind_eq_ok decided
  cases decided
  exact ⟨disposition, {
    id := rfl
    planned := ⟨r, rfl⟩
    action := rfl
    disposed := disposed
    certificate := rfl
    guards := ⟨_, rfl⟩
    power := power
    failures := rfl }⟩

theorem signed_safe (certificate : SafetyCertificate) :
    (pl.signed certificate).safe = certificate.safe := by
  unfold signed
  split <;> rfl

theorem floor_of_power {q : ℚ} (passed : pl.hardwareFloor (some (.fin q)) = none) :
    minViableTxPowerDbm ≤ q := by
  unfold hardwareFloor at passed
  dsimp only at passed
  split at passed
  · cases passed
  · rename_i above
    simpa [Number.lt] using above

variable {pl m event} {disposition : ShieldDisposition}

/-- Nothing has failed: the Shield has certified the action, so its power is finite. -/
theorem emittable_of_decided (decided : Decided pl m event d disposition)
    (passed : d.failures = []) (live : envTruthy m.dryRun = false) : Emittable m d := by
  rw [decided.failures, List.append_eq_nil_iff] at passed
  obtain ⟨chain, hardware⟩ := passed
  obtain ⟨audit, guards⟩ := decided.guards
  rw [chain] at guards
  obtain ⟨safe, free⟩ := certified_of_chain _ guards.symm
  have certified : disposition.certificate.safe = true := by
    rw [← signed_safe pl, ← decided.certificate, safe]
  obtain ⟨q, finite⟩ : ∃ q : ℚ,
      (Dict.getD disposition.safeAction "tx_power_dBm" .null).toFloat pl.env.py = .ok (.fin q) := by
    rcases (Shield.dispose_verdict decided.disposed).2 with ⟨_, _, holds⟩ | ⟨unsafe', _⟩
    · have sane : NumericSanity.Sane pl.env.py disposition.safeAction :=
        NumericSanity.sane_of_holds _ (holds _ (by simp [shield, defaultTerrestrialShield]))
      exact sane.txPower
    · rw [certified] at unsafe'
      cases unsafe'
  have power : d.safeTx = some (.fin q) := by
    have given := decided.power
    unfold safeTxVal at given
    split at given
    · rename_i missing
      rw [missing] at finite
      cases finite
    · rw [finite] at given
      exact (Except.ok.inj given).symm
  refine ⟨safe, free, chain, ⟨q, power, ?_⟩, live⟩
  rw [power, Option.toList_eq_nil_iff] at hardware
  exact floor_of_power pl hardware

theorem Decided.plain (decided : Decided pl m event d disposition) :
    Agrees d.record (unshipped m event d) := by
  constructor
  · rw [decided.action]
    rfl
  · rw [decided.action]
    rfl
  · rw [decided.action]
    rfl

end DecisionPipeline

/-- What one `process_event` on a fresh decision id leaves behind. -/
structure CertifiedOnce (pl : DecisionPipeline) (m : Moment) (event : TelemetryEvent) (l : Ledger)
    (outcome : Except PyErr PipelineResult) (l' : Ledger) : Prop where
  certified : l'.puts ≠ l.puts → ∃ d, pl.decide m event = .ok d ∧ Emittable m d
  own : ∃ new, l'.rows = l.rows ++ new ∧ ∀ row ∈ new, row.decisionId = m.decisionId
  atMostOne : (l'.rowsOf m.decisionId).length ≤ 1
  recorded : ∀ r, outcome = .ok r → r.evidencePersistFailed = false →
    ∃ row, l'.rowsOf m.decisionId = [row] ∧ Agrees row r

section
variable {l l' : Ledger} {decisionId : String}
  (fresh : ∀ row ∈ l.rows, row.decisionId ≠ decisionId)
include fresh

theorem rowsOf_same (same : l'.rows = l.rows) : l'.rowsOf decisionId = [] := by
  rw [Ledger.rowsOf, same, List.filter_eq_nil_iff]
  intro row member
  simp [fresh row member]

theorem rowsOf_snoc {row : DecisionRecord} (added : l'.rows = l.rows ++ [row])
    (own : row.decisionId = decisionId) : l'.rowsOf decisionId = [row] := by
  have old : l.rowsOf decisionId = [] := rowsOf_same fresh rfl
  rw [Ledger.rowsOf] at old
  rw [Ledger.rowsOf, added, List.filter_append, old]
  simp [own]

end

open DecisionPipeline in
/-- A PUT only for what is certified, at most one row for every decision, and exactly
    one where the result does not say that persisting it failed. -/
theorem processEvent_certifiedOnce (pl : DecisionPipeline) (m : Moment) (event : TelemetryEvent)
    (l : Ledger) (fresh : ∀ row ∈ l.rows, row.decisionId ≠ m.decisionId) :
    CertifiedOnce pl m event l (pl.processEvent m event l).1 (pl.processEvent m event l).2 := by
  unfold processEvent
  cases decided : pl.decide m event with
  | error e =>
    have none' : l.rowsOf m.decisionId = [] := rowsOf_same fresh rfl
    constructor
    · intro attempted
      exact absurd rfl attempted
    · exact ⟨[], by simp⟩
    · simp [none']
    · simp
  | ok d =>
    obtain ⟨disposition, sound⟩ := decide_decided pl m event decided
    obtain ⟨rows, returned⟩ := sound.id ▸ dispatch_recorded pl m event sound.plain l
    constructor
    · intro attempted
      obtain ⟨passed, _, live⟩ := dispatch_puts pl m event l attempted
      exact ⟨d, decided, emittable_of_decided sound passed live⟩
    · rcases rows with same | ⟨row, added, own⟩
      · exact ⟨[], by simpa using same⟩
      · exact ⟨[row], added, by simpa using own⟩
    · rcases rows with same | ⟨row, added, own⟩
      · simp [rowsOf_same fresh same]
      · simp [rowsOf_snoc fresh added own]
    · intro r outcome persisted
      obtain ⟨row, added, own, agrees⟩ := returned r outcome persisted
      exact ⟨row, rowsOf_snoc fresh added own, agrees⟩

/-! A peer that accepts every policy. -/

def samplePipeline : DecisionPipeline where
  env := samplePlatform
  a1 := { put := fun _ => .accepted 201 }

def sampleMoment : Moment where
  decisionId := "d-2"
  policyId := "p-1"
  timestamp := "2026-01-01T00:00:00Z"
  issuedAt := "2026-01-01T00:00:00Z"
  elapsedMs := .fin 5

def sampleLedger : Ledger where
  rows := [sampleRecord (.fin 0) "d-1" none]

theorem processEvent_certifiedOnce_sample :
    (∀ row ∈ sampleLedger.rows, row.decisionId ≠ sampleMoment.decisionId) ∧
      (samplePipeline.processEvent sampleMoment sampleEvent sampleLedger).2.puts.length = 1 ∧
      CertifiedOnce samplePipeline sampleMoment sampleEvent sampleLedger
        (samplePipeline.processEvent sampleMoment sampleEvent sampleLedger).1
        (samplePipeline.processEvent sampleMoment sampleEvent sampleLedger).2 := by
  have fresh : ∀ row ∈ sampleLedger.rows, row.decisionId ≠ sampleMoment.decisionId := by
    intro row member
    rw [List.mem_singleton.mp member]
    decide
  exact ⟨fresh, by decide +kernel,
    processEvent_certifiedOnce samplePipeline sampleMoment sampleEvent sampleLedger fresh⟩

end HorizonRic.Rapp
