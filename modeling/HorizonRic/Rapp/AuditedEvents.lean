import HorizonRic.Rapp.StatusPolling
import HorizonRic.Shield.Corrections

/-!
Which telemetry events reach the audit when the store and the peer never fail: all
but those whose risk is an integer that `float` refuses, and those that hold an
integer too long to be read back for the state hash.
-/
namespace HorizonRic.Rapp

open Py Io Evidence Policy

/-- Neither the store nor the adapter fails; `response.json()` reads no integer that is
    too long to be printed. -/
structure Reliable (pl : DecisionPipeline) (m : Moment) : Prop where
  persists : ∀ n, pl.store.fails n = none
  accepts : ∀ put, ∃ status, pl.a1.put put = .accepted status
  registered : ∀ r, ∃ typeId, Dict.get? (choose r) pl.a1.cfg.policyTypes = some typeId
  answers : ∀ n err, m.statuses n ≠ .error (.other err)
  readable : ∀ n body, m.statuses n = .ok body → body.digitsOk = true

/-- The risk is a probability that validates wherever it goes, and the decision ends with
    its one record. -/
structure AuditedEvent (pl : DecisionPipeline) (m : Moment) (event : TelemetryEvent)
    (l : Ledger) : Prop where
  risk : ∃ r, risk pl.env.py event = .ok r ∧ 0 ≤ r ∧ r ≤ 1 ∧
    (∃ outcome, predictedOutcome r pl.env.pydantic = .ok outcome) ∧
    ∃ alternatives, rejected r pl.env.pydantic event m.decisionId (pl.seed event) =
      .ok alternatives
  recorded : ∃ result row, (pl.processEvent m event l).1 = .ok result ∧
    (pl.processEvent m event l).2.rowsOf m.decisionId = [row]

theorem corrections_isOk {corrections : List ConstraintViolation}
    (hard : ∀ c ∈ corrections, c.severity = "hard") :
    ∃ out, corrections.mapM correctionOf = .ok out := by
  apply mapM_isOk
  intro c member
  refine ⟨⟨c.constraintId, .hard, c.marginDB, c.message⟩, ?_⟩
  rw [correctionOf, hard c member]
  rfl

namespace DecisionPipeline
variable (pl : DecisionPipeline) (m : Moment) (event : TelemetryEvent)

theorem stateHash_isOk_iff :
    (∃ hash, pl.stateHash event = .ok hash) ↔ event.modelDump.digitsOk = true := by
  unfold stateHash Json.dumps
  split
  · rename_i digits
    simp [digits, ok_bind]
  · rename_i long
    constructor
    · rintro ⟨hash, hashed⟩
      cases hashed
    · intro digits
      exact absurd digits long

/-- The risk that no float holds, and the event that no hash is made of, end the call. -/
theorem decide_raises (unread : HugeRisk event ∨ event.modelDump.digitsOk ≠ true) :
    ∃ e, pl.decide m event = .error e := by
  cases decided : pl.decide m event with
  | error e => exact ⟨e, rfl⟩
  | ok d =>
    exfalso
    obtain ⟨hash, hashed, rest⟩ := bind_eq_ok decided
    obtain ⟨r, risked, _⟩ := bind_eq_ok rest
    rcases unread with huge | long
    · rw [risk_huge pl.env.py huge] at risked
      cases risked
    · exact long ((stateHash_isOk_iff pl event).mp ⟨hash, hashed⟩)

theorem signed_corrections (certificate : SafetyCertificate) :
    (pl.signed certificate).corrections = certificate.corrections := by
  unfold signed
  split <;> rfl

theorem safeTxVal_isOk {safeAction : Dict Value}
    (float : ∃ x, Dict.get? "tx_power_dBm" safeAction = some (.float x)) :
    ∃ safeTx, pl.safeTxVal safeAction = .ok safeTx := by
  obtain ⟨x, found⟩ := float
  rw [safeTxVal, Dict.getD, found]
  exact ⟨some x, rfl⟩

/-- Every event whose risk is a probability and whose hash can be made is decided. -/
theorem decide_isOk {r : ℚ} (risked : risk pl.env.py event = .ok r) (low : 0 ≤ r) (high : r ≤ 1)
    (digits : event.modelDump.digitsOk = true) : ∃ d, pl.decide m event = .ok d := by
  obtain ⟨hash, hashed⟩ := (stateHash_isOk_iff pl event).mpr digits
  obtain ⟨payload, chosen⟩ := chosenPayload_isOk r event m.decisionId
  obtain ⟨alternatives, built⟩ :=
    rejected_isOk low high pl.env.pydantic event m.decisionId (pl.seed event)
  obtain ⟨outcome, predicted⟩ := predictedOutcome_isOk low pl.env.pydantic
  obtain ⟨disposition, disposed⟩ : ∃ disposition, pl.shield.dispose pl.env.py
      (shieldAction pl.cfg (choose r) payload) (some []) (disposeArgs m) = .ok disposition :=
    Shield.dispose_isOk (terrestrial_chain pl.env.py _).safe _ _ _ _ rfl
  obtain ⟨hard, power⟩ := terrestrial_corrections pl.env.py rfl disposed
  obtain ⟨safeTx, converted⟩ := safeTxVal_isOk pl (power ⟨_, rfl⟩)
  rw [← signed_corrections pl] at hard
  obtain ⟨corrections, corrected⟩ := corrections_isOk hard
  rw [decide, hashed, ok_bind, risked, ok_bind]
  dsimp only
  rw [chosen, ok_bind, built, ok_bind, disposed, ok_bind, corrected, ok_bind, converted, ok_bind,
    predicted, ok_bind]
  exact ⟨_, rfl⟩

variable {pl m} (reliable : Reliable pl m)
include reliable

theorem append_isOk (record : DecisionRecord) (l : Ledger) :
    ∃ after, pl.store.append record l = (.ok (), after) := by
  rw [EvidenceSink.append, reliable.persists]
  exact ⟨_, rfl⟩

theorem answer_calm (n : Nat) : ¬ Escapes (m.statuses n) := by
  have err := reliable.answers n
  have readable := reliable.readable n
  cases answered : m.statuses n with
  | error raised =>
    cases raised with
    | other e => exact absurd answered (err e)
    | _ => exact id
  | ok value =>
    cases value with
    | dict body =>
      have digits := readable _ answered
      have field : ∀ key, (Dict.getD body key .null).digitsOk = true := by
        intro key
        cases found : Dict.get? key body with
        | none =>
          rw [Dict.getD, found]
          rfl
        | some v =>
          rw [Dict.getD, found]
          exact (Json.digitsOkItems_iff body).mp digits _ (Dict.mem_of_get? found)
      have either : ∀ {a b : Value}, a.digitsOk = true → b.digitsOk = true →
          (orElse a b).digitsOk = true := by
        intro a b first second
        unfold orElse
        split
        · exact first
        · exact second
      rw [Escapes, reportedStatus,
        either (field "enforceStatus") (either (field "instance_status") (field "status"))]
      exact Bool.true_eq_false_eq_False
    | _ => exact id

theorem pollFrom_isOk (left n : Nat) (last : Option String × Option Bool) :
    ∃ enforcement, pl.pollFrom m.statuses left n last = .ok enforcement := by
  rw [pollFrom_returns_iff]
  intro k _ _ escapes
  exact absurd escapes (answer_calm reliable k)

theorem accepted_isOk (event : TelemetryEvent) (d : Decision) (policyId : String) (status : Int)
    (l : Ledger) : ∃ r, (pl.accepted m event d policyId status false l).1 = .ok r ∧
      r.evidencePersistFailed = false := by
  obtain ⟨⟨enforcementStatus, enforced⟩, polled⟩ : ∃ enforcement,
      pl.pollEnforcement m = .ok enforcement := pollFrom_isOk reliable _ _ _
  rw [accepted, polled]
  exact ⟨_, rfl, rfl⟩

theorem emitPolicy_isOk {d : Decision} (emittable : Emittable m d)
    (planned : ∃ r, d.policyType = choose r) (l : Ledger) :
    ∃ status after, pl.a1.emitPolicy pl.store d.policyType d.payload m.policyId d.record
      d.certificate l = (.ok (m.policyId, status), after) := by
  obtain ⟨r, planned⟩ := planned
  obtain ⟨typeId, registered⟩ := reliable.registered r
  obtain ⟨status, answered⟩ := reliable.accepts (pl.a1.policyPut typeId m.policyId d.payload)
  have certified : pl.a1.refuses d.certificate = false := by
    rw [A1Adapter.refuses, emittable.safe, emittable.free]
    simp
  rw [A1Adapter.emitPolicy, planned, registered]
  simp only [certified, answered]
  obtain ⟨after, appended⟩ := append_isOk reliable d.record
    { l with
      puts := l.puts ++ [pl.a1.policyPut typeId m.policyId d.payload]
      policiesEmitted := l.policiesEmitted + 1 }
  rw [if_neg Bool.false_ne_true, appended]
  exact ⟨status, after, rfl⟩

/-- Every decision ends with a result that reports no persist failure. -/
theorem dispatch_isOk {d : Decision} {disposition : ShieldDisposition}
    (decided : Decided pl m event d disposition) (l : Ledger) :
    ∃ r, (pl.dispatch m event d l).1 = .ok r ∧ r.evidencePersistFailed = false := by
  unfold dispatch
  split
  · unfold refuse
    obtain ⟨after, appended⟩ := append_isOk reliable
      (flag (flag d.record "emit_blocked" (.bool true)) "block_reasons"
        (texts (if d.failures.isEmpty then ["shield_blocked"] else d.failures.map (·.guardId)))) l
    dsimp only
    rw [appended]
    exact ⟨_, rfl, rfl⟩
  · rename_i passed
    split
    · unfold suppress
      obtain ⟨after, appended⟩ :=
        append_isOk reliable (flag d.record "dry_run" (.bool true)) l
      rw [appended]
      exact ⟨_, rfl, rfl⟩
    · rename_i live
      have clean : d.failures = [] := by
        rw [Bool.or_eq_true, not_or] at passed
        simpa using passed.1
      have emittable := emittable_of_decided decided clean (by simpa using live)
      obtain ⟨status, after, sent⟩ := emitPolicy_isOk reliable emittable decided.planned l
      rw [emit, sent]
      exact accepted_isOk reliable event d m.policyId status after

end DecisionPipeline

open DecisionPipeline in
/-- With a store and a peer that never fail, an event is audited exactly when its risk is
    no integer beyond the floats and every integer in it can be read back. -/
theorem audited_iff (pl : DecisionPipeline) (m : Moment) (event : TelemetryEvent) (l : Ledger)
    (reliable : Reliable pl m) (fresh : ∀ row ∈ l.rows, row.decisionId ≠ m.decisionId) :
    AuditedEvent pl m event l ↔ ¬ HugeRisk event ∧ event.modelDump.digitsOk = true := by
  constructor
  · intro audited
    by_contra unread
    have raises : ∃ e, pl.decide m event = .error e := by
      apply decide_raises pl m event
      by_cases huge : HugeRisk event
      · exact Or.inl huge
      · exact Or.inr fun digits => unread ⟨huge, digits⟩
    obtain ⟨e, raised⟩ := raises
    obtain ⟨result, row, returned, _⟩ := audited.recorded
    rw [processEvent, raised] at returned
    cases returned
  · rintro ⟨small, digits⟩
    obtain ⟨r, risked, low, high⟩ := risk_isOk pl.env.py small
    obtain ⟨d, decided⟩ := decide_isOk pl m event risked low high digits
    obtain ⟨disposition, sound⟩ := decide_decided pl m event decided
    obtain ⟨result, returned, persisted⟩ := dispatch_isOk event reliable sound l
    have recorded := sound.id ▸ dispatch_recorded pl m event sound.plain l
    obtain ⟨row, added, own, _⟩ := recorded.returned result returned persisted
    refine ⟨⟨r, risked, low, high, predictedOutcome_isOk low _, rejected_isOk low high _ _ _ _⟩,
      result, row, ?_, ?_⟩
    · rw [processEvent, decided]
      exact returned
    · rw [processEvent, decided]
      exact rowsOf_snoc fresh added own

/-! The sample peer, and the least integer that `float` refuses, `2**1024 - 2**970`. -/

theorem sample_reliable : Reliable samplePipeline sampleMoment where
  persists _ := rfl
  accepts _ := ⟨201, rfl⟩
  registered r := by
    unfold choose
    split_ifs
    · exact ⟨_, rfl⟩
    · exact ⟨_, rfl⟩
    · exact ⟨_, rfl⟩
  answers n err := by
    intro raised
    cases raised
  readable n body := by
    intro answered
    cases answered

theorem audited_iff_sample :
    Reliable samplePipeline sampleMoment ∧
      (∀ row ∈ ({} : Ledger).rows, row.decisionId ≠ sampleMoment.decisionId) ∧
      (AuditedEvent samplePipeline sampleMoment sampleEvent {} ↔
        ¬ HugeRisk sampleEvent ∧ sampleEvent.modelDump.digitsOk = true) := by
  have fresh : ∀ row ∈ ({} : Ledger).rows, row.decisionId ≠ sampleMoment.decisionId := by simp
  exact ⟨sample_reliable, fresh,
    audited_iff samplePipeline sampleMoment sampleEvent {} sample_reliable fresh⟩

def hugeRiskEvent : TelemetryEvent :=
  { sampleEvent with payload := [("sla_risk_30s", .int floatOverflow)] }

/-- `_risk` lets the `OverflowError` through, and the event leaves no record. -/
theorem hugeRisk_unaudited :
    Reliable samplePipeline sampleMoment ∧
      risk samplePipeline.env.py hugeRiskEvent = .error .overflowError ∧
      (∃ e, (samplePipeline.processEvent sampleMoment hugeRiskEvent {}).1 = .error e) ∧
      (samplePipeline.processEvent sampleMoment hugeRiskEvent {}).2.rowsOf
        sampleMoment.decisionId = [] := by
  have huge : HugeRisk hugeRiskEvent := by
    refine ⟨floatOverflow, rfl, ?_⟩
    rw [Int.natAbs_natCast]
  obtain ⟨e, raised⟩ :=
    DecisionPipeline.decide_raises samplePipeline sampleMoment hugeRiskEvent (Or.inl huge)
  refine ⟨sample_reliable, risk_huge _ huge, ⟨e, ?_⟩, ?_⟩
  · rw [DecisionPipeline.processEvent, raised]
  · rw [DecisionPipeline.processEvent, raised]
    rfl

end HorizonRic.Rapp
