import HorizonRic.Rapp.DecisionRecords

/-!
The status poll after an accepted PUT. `_poll_enforcement` absorbs an `httpx.HTTPError`,
a `ValueError` and every JSON body, but no other exception of the peer's client, although
the pipeline's comment says that the poll can never fail the emit.
-/
namespace HorizonRic.Rapp

open Py Io Evidence Policy

/-- The status that a body reports, under the first of its three names that is not empty. -/
def reportedStatus (body : Dict Value) : Value :=
  DecisionPipeline.orElse (Dict.getD body "enforceStatus" .null)
    (DecisionPipeline.orElse (Dict.getD body "instance_status" .null)
      (Dict.getD body "status" .null))

/-- An answer that leaves the poll as an exception: the client raises something other than
    an `HTTPError` or a `ValueError`, or `str` refuses an integer of the status. -/
def Escapes : Except StatusError Value → Prop
  | .error .httpError => False
  | .error .valueError => False
  | .error (.other _) => True
  | .ok (.dict body) => (reportedStatus body).digitsOk = false
  | .ok _ => False

/-- The status an attempt reads from the peer's answer, if there is one. -/
def readStatus (py : Interpreter) : Except StatusError Value → Except PyErr (Option String)
  | .error .httpError => .ok none
  | .error .valueError => .ok none
  | .error (.other e) => .error e
  | .ok (.dict body) =>
    match reportedStatus body with
    | .null => .ok none
    | raw => do
      let text ← raw.toStr py
      .ok (some text)
  | .ok _ => .ok none

/-- An answer after which the poll stops early. -/
def Enforces (py : Interpreter) (answer : Except StatusError Value) : Prop :=
  ∃ text ∈ enforcedStates, readStatus py answer = .ok (some text)

/-- Every exception among the polled answers comes after one that ends the poll. -/
def PollAbsorbs (py : Interpreter) (statuses : Nat → Except StatusError Value)
    (attempts : Nat) : Prop :=
  ∀ k < attempts, Escapes (statuses k) → ∃ j < k, Enforces py (statuses j)

theorem readStatus_dict (py : Interpreter) (body : Dict Value) :
    (reportedStatus body = .null ∧ readStatus py (.ok (.dict body)) = .ok none) ∨
      (reportedStatus body ≠ .null ∧ readStatus py (.ok (.dict body)) = do
        let text ← (reportedStatus body).toStr py
        .ok (some text)) := by
  rw [readStatus]
  split
  · rename_i empty
    exact Or.inl ⟨empty, rfl⟩
  · rename_i some
    exact Or.inr ⟨fun empty => some empty, rfl⟩

theorem escapes_iff (py : Interpreter) (answer : Except StatusError Value) :
    Escapes answer ↔ ∃ e, readStatus py answer = .error e := by
  cases answer with
  | error raised => cases raised <;> simp [Escapes, readStatus]
  | ok value =>
    cases value with
    | dict body =>
      rcases readStatus_dict py body with ⟨empty, read⟩ | ⟨_, read⟩
      · rw [read, Escapes, empty]
        simp [Value.digitsOk]
      · rw [read, Escapes]
        have prints := toStr_isOk_iff py (reportedStatus body)
        cases printed : (reportedStatus body).toStr py with
        | error e =>
          rw [printed] at prints
          exact ⟨fun _ => ⟨e, rfl⟩, fun _ => by simpa using prints⟩
        | ok text =>
          rw [printed] at prints
          simpa [ok_bind] using prints
    | _ => simp [Escapes, readStatus]

namespace DecisionPipeline
variable (pl : DecisionPipeline) {statuses : Nat → Except StatusError Value}

/-- One attempt of the poll. -/
theorem pollFrom_succ (left n : Nat) (last : Option String × Option Bool) :
    pl.pollFrom statuses (left + 1) n last = readStatus pl.env.py (statuses n) >>= fun
      | none => pl.pollFrom statuses left (n + 1) last
      | some text =>
        if text ∈ enforcedStates then .ok (some text, some true)
        else pl.pollFrom statuses left (n + 1) (some text, some false) := by
  rw [pollFrom]
  cases statuses n with
  | error raised => cases raised <;> rfl
  | ok value =>
    cases value with
    | dict body =>
      rcases readStatus_dict pl.env.py body with ⟨empty, read⟩ | ⟨some, read⟩
      · rw [read]
        rw [reportedStatus] at empty
        simp only [empty]
        rfl
      · rw [read]
        rw [reportedStatus] at some ⊢
        dsimp only
        split
        · rename_i empty
          exact absurd empty some
        · cases Value.toStr pl.env.py _ <;> rfl
    | _ => rfl

/-- Of the attempts from `n` on, none escapes before one enforces: split at the first one. -/
theorem absorbed_succ {escapes enforces : Nat → Prop} (left n : Nat) :
    (∀ k, n ≤ k → k < n + (left + 1) → escapes k → ∃ j, n ≤ j ∧ j < k ∧ enforces j) ↔
      ¬ escapes n ∧ (enforces n ∨
        ∀ k, n + 1 ≤ k → k < n + 1 + left → escapes k → ∃ j, n + 1 ≤ j ∧ j < k ∧ enforces j) := by
  constructor
  · intro absorbed
    refine ⟨fun now => ?_, ?_⟩
    · obtain ⟨j, low, high, _⟩ := absorbed n (le_refl n) (by omega) now
      omega
    · by_cases first : enforces n
      · exact Or.inl first
      · right
        intro k low high later
        obtain ⟨j, low', high', found⟩ := absorbed k (by omega) (by omega) later
        rcases Nat.eq_or_lt_of_le low' with rfl | after
        · exact absurd found first
        · exact ⟨j, after, high', found⟩
  · rintro ⟨calm, first⟩ k low high later
    rcases Nat.eq_or_lt_of_le low with rfl | after
    · exact absurd later calm
    · rcases first with found | absorbed
      · exact ⟨n, le_refl n, after, found⟩
      · obtain ⟨j, low', high', found⟩ := absorbed k after (by omega) later
        exact ⟨j, by omega, high', found⟩

/-- When the rest of the poll returns. -/
theorem pollFrom_returns_iff (left n : Nat) (last : Option String × Option Bool) :
    (∃ out, pl.pollFrom statuses left n last = .ok out) ↔
      ∀ k, n ≤ k → k < n + left → Escapes (statuses k) →
        ∃ j, n ≤ j ∧ j < k ∧ Enforces pl.env.py (statuses j) := by
  induction left generalizing n last with
  | zero =>
    constructor
    · intro _ k low high
      omega
    · intro _
      exact ⟨last, rfl⟩
  | succ left ih =>
    rw [absorbed_succ, escapes_iff pl.env.py, pollFrom_succ]
    cases read : readStatus pl.env.py (statuses n) with
    | error e =>
      constructor
      · rintro ⟨out, returned⟩
        cases returned
      · rintro ⟨calm, _⟩
        exact absurd ⟨e, rfl⟩ calm
    | ok status =>
      have enforces_iff : Enforces pl.env.py (statuses n) ↔
          ∃ text ∈ enforcedStates, status = some text := by
        rw [Enforces, read]
        simp only [Except.ok.injEq]
      rw [ok_bind, enforces_iff]
      cases status with
      | none =>
        dsimp only
        rw [ih]
        simp
      | some text =>
        dsimp only
        split
        · rename_i member
          simp [member]
        · rename_i other
          rw [ih]
          simp [other]

variable (m : Moment) (event : TelemetryEvent) (l : Ledger)

theorem pollEnforcement_returns_iff :
    (∃ out, pl.pollEnforcement m = .ok out) ↔
      PollAbsorbs pl.env.py m.statuses (max 1 pl.cfg.statusPollAttempts).toNat := by
  rw [pollEnforcement, pollFrom_returns_iff]
  constructor
  · intro absorbed k high escapes
    obtain ⟨j, _, earlier, found⟩ := absorbed k (Nat.zero_le k) (by omega) escapes
    exact ⟨j, earlier, found⟩
  · intro absorbed k _ high escapes
    obtain ⟨j, earlier, found⟩ := absorbed k (by omega) escapes
    exact ⟨j, Nat.zero_le j, earlier, found⟩

/-- The id of the policy that the event's emit has made live: `emit_policy` returned, or
    raised `EvidencePersistError`. -/
def liveId : Option String :=
  match pl.decide m event with
  | .error _ => none
  | .ok d =>
    if !d.failures.isEmpty || d.certificate.emitBlocked then none
    else if envTruthy m.dryRun then none
    else match (pl.a1.emitPolicy pl.store d.policyType d.payload m.policyId d.record d.certificate
        l).1 with
      | .ok (policyId, _) => some policyId
      | .error (.evidencePersist policyId _) => some policyId
      | .error _ => none

/-- `process_event` returns a result that reports the live policy as accepted. -/
def ReportsAccepted (policyId : String) : Prop :=
  ∃ r, (pl.processEvent m event l).1 = .ok r ∧ r.accepted = true ∧ r.policyId = some policyId

variable {pl m event l}

theorem accepted_reports_iff (d : Decision) (policyId : String) (status : Int)
    (persistFailed : Bool) :
    (∃ r, (pl.accepted m event d policyId status persistFailed l).1 = .ok r ∧
        r.accepted = true ∧ r.policyId = some policyId) ↔
      ∃ out, pl.pollEnforcement m = .ok out := by
  rw [accepted]
  cases polled : pl.pollEnforcement m with
  | error e =>
    constructor
    · rintro ⟨r, returned, _⟩
      cases returned
    · rintro ⟨out, returned⟩
      cases returned
  | ok out =>
    constructor
    · intro _
      exact ⟨out, rfl⟩
    · intro _
      exact ⟨_, rfl, rfl, rfl⟩

/-- After a PUT that made its policy live, the run goes on with the poll. -/
theorem processEvent_of_live {policyId : String} (live : pl.liveId m event l = some policyId) :
    ∃ d status persistFailed after,
      pl.processEvent m event l = pl.accepted m event d policyId status persistFailed after := by
  rw [liveId] at live
  cases decided : pl.decide m event with
  | error e =>
    rw [decided] at live
    cases live
  | ok d =>
    simp only [decided] at live
    split at live
    · cases live
    · rename_i passed
      split at live
      · cases live
      · rename_i armed
        rw [processEvent, decided]
        dsimp only
        rw [dispatch, if_neg passed, if_neg armed, emit]
        cases sent : pl.a1.emitPolicy pl.store d.policyType d.payload m.policyId d.record
          d.certificate l with
        | mk outcome after =>
          simp only [sent] at live
          split at live
          · cases live
            exact ⟨d, _, false, after, rfl⟩
          · cases live
            exact ⟨d, _, true, _, rfl⟩
          · cases live

end DecisionPipeline

/-- A live policy is reported as accepted exactly when the poll absorbs what the peer's
    client raises: nothing but HTTP and value errors before a status that is enforced. -/
theorem acceptance_kept_iff (pl : DecisionPipeline) (m : Moment) (event : TelemetryEvent)
    (l : Ledger) (policyId : String) (live : pl.liveId m event l = some policyId) :
    pl.ReportsAccepted m event l policyId ↔
      PollAbsorbs pl.env.py m.statuses (max 1 pl.cfg.statusPollAttempts).toNat := by
  obtain ⟨d, status, persistFailed, after, goesOn⟩ := DecisionPipeline.processEvent_of_live live
  rw [DecisionPipeline.ReportsAccepted, goesOn, DecisionPipeline.accepted_reports_iff,
    DecisionPipeline.pollEnforcement_returns_iff]

theorem sample_live :
    samplePipeline.liveId sampleMoment sampleEvent {} = some "p-1" := by
  decide +kernel

theorem acceptance_kept_sample :
    samplePipeline.liveId sampleMoment sampleEvent {} = some "p-1" ∧
      (samplePipeline.ReportsAccepted sampleMoment sampleEvent {} "p-1" ↔
        PollAbsorbs samplePipeline.env.py sampleMoment.statuses
          (max 1 samplePipeline.cfg.statusPollAttempts).toNat) :=
  ⟨sample_live, acceptance_kept_iff samplePipeline sampleMoment sampleEvent {} "p-1" sample_live⟩

/-- The peer answers the first poll with JSON too deep for `response.json()`. -/
def deepAnswerMoment : Moment :=
  { sampleMoment with statuses := fun _ => .error (.other (.other "RecursionError")) }

/-- The policy is live, and `process_event` raises. -/
theorem deepAnswer_unreported :
    samplePipeline.liveId deepAnswerMoment sampleEvent {} = some "p-1" ∧
      (∃ e, (samplePipeline.processEvent deepAnswerMoment sampleEvent {}).1 = .error e) ∧
      ¬ samplePipeline.ReportsAccepted deepAnswerMoment sampleEvent {} "p-1" := by
  have live : samplePipeline.liveId deepAnswerMoment sampleEvent {} = some "p-1" := sample_live
  obtain ⟨d, status, persistFailed, after, goesOn⟩ := DecisionPipeline.processEvent_of_live live
  have raised : (samplePipeline.processEvent deepAnswerMoment sampleEvent {}).1 =
      .error (.other "RecursionError") := by
    rw [goesOn]
    rfl
  refine ⟨live, ⟨_, raised⟩, ?_⟩
  rintro ⟨r, returned, _⟩
  rw [raised] at returned
  cases returned

end HorizonRic.Rapp
