import HorizonRic.Rapp.EventLoop
import HorizonRic.Rapp.DecisionRecords

/-!
The counters of `_daemon_main` against what `process_event` did: the events by
outcome, the emitted decisions of the checkpoint, and `audit_len`, which counts the
records of the store without reading it again.
-/
namespace HorizonRic.Rapp

open Py Io Evidence Machine

/-- The daemon with the evidence ledger, `audit_len`, the gauge `AUDIT_CHAIN_LENGTH`, and what
    `process_event` has answered so far. -/
structure AccountedDaemon (σ : Type) where
  daemon : Daemon σ
  ledger : Ledger
  auditLen : ℕ
  gauge : ℕ
  answers : List (Except PyErr PipelineResult) := []

/-- What the loop meets: its own inputs, and a call of `process_event`. -/
inductive LoopEvent where
  | loop (input : Input)
  | call (pl : DecisionPipeline) (m : Moment)

namespace AccountedDaemon
variable {σ : Type}

/-- `audit_len = len(store)` before the loop. -/
def boot (stream : AsyncGenerator σ) (checkpoint : StateCheckpoint) (stateFile : StateFile)
    (now : ℚ) (ledger : Ledger) : AccountedDaemon σ :=
  { daemon := .boot stream checkpoint stateFile now
    ledger
    auditLen := ledger.rows.length
    gauge := ledger.rows.length }

section
variable (py : Interpreter) (source : Source σ) (cfg : DaemonConfig)

/-- `process_event` on the event at hand, and the counting of what it answers. -/
def handle (s : AccountedDaemon σ) (pl : DecisionPipeline) (m : Moment) (event : TelemetryEvent) :
    Option (AccountedDaemon σ) :=
  match pl.processEvent m event s.ledger with
  | (.ok r, ledger) =>
    (s.daemon.step py source cfg (.result r)).map fun daemon =>
      { daemon, ledger, auditLen := s.auditLen + 1, gauge := s.auditLen + 1,
        answers := s.answers ++ [.ok r] }
  | (.error e, ledger) =>
    (s.daemon.step py source cfg .raises).map fun daemon =>
      { s with daemon, ledger, answers := s.answers ++ [.error e] }

def step (s : AccountedDaemon σ) : LoopEvent → Option (AccountedDaemon σ)
  | .loop (.result _) => none
  | .loop .raises => none
  | .loop (.finish utc) =>
    (s.daemon.step py source cfg (.finish utc)).map fun daemon =>
      { s with daemon, auditLen := s.ledger.rows.length, gauge := s.ledger.rows.length }
  | .loop input => (s.daemon.step py source cfg input).map fun daemon => { s with daemon }
  | .call pl m =>
    match s.daemon.phase with
    | .deciding event => s.handle py source cfg pl m event
    | _ => none

end
end AccountedDaemon

/-! What the counters should be. -/

namespace Daemon
variable {σ : Type}

/-- The event at hand has been counted. -/
def AllCounted (d : Daemon σ) : Prop := ∀ event, d.phase ≠ .deciding event

/-- `accepted + blocked + dry_run + emit_failed + errors`. -/
def outcomes (d : Daemon σ) : Int :=
  d.nAccepted + d.nBlocked + d.nDryRun + d.nFailed + d.nErrors

/-- The events that were taken and are not yet counted. -/
def pending (d : Daemon σ) : Int :=
  match d.phase with
  | .deciding _ => 1
  | _ => 0

end Daemon

/-- `process_event` returned a result that the peer has accepted. -/
def shipped : Except PyErr PipelineResult → Bool
  | .ok r => r.accepted
  | .error _ => false

namespace AccountedDaemon
variable {σ : Type}

/-- The counters of events, in every phase. -/
structure Counted (start s : AccountedDaemon σ) : Prop where
  events : s.daemon.nEvents = s.daemon.outcomes + s.daemon.pending
  answered : s.daemon.outcomes = s.answers.length
  accepted : s.daemon.nAccepted = s.answers.countP shipped
  emitted : s.daemon.checkpoint.decisionsEmitted =
    start.daemon.checkpoint.decisionsEmitted + s.daemon.nAccepted

/-- `audit_len` and the gauge give the number of records in the store. -/
def AuditTrue (s : AccountedDaemon σ) : Prop :=
  s.auditLen = s.ledger.rows.length ∧ s.gauge = s.ledger.rows.length

/-- The daemon's account of what happened. -/
structure Accounts (start s : AccountedDaemon σ) : Prop where
  events : s.daemon.nEvents = s.daemon.outcomes
  accepted : s.daemon.nAccepted = s.answers.countP shipped
  emitted : s.daemon.checkpoint.decisionsEmitted =
    start.daemon.checkpoint.decisionsEmitted + s.daemon.nAccepted
  audit : s.AuditTrue

end AccountedDaemon

/-! When `audit_len` follows the store. -/

/-- How the PUT of a decision ends, with the checks before it. -/
def A1Adapter.answer (a1 : A1Adapter) (policyType : String) (payload : Dict Value)
    (policyId : String) (certificate : SafetyCertificate) : PutOutcome :=
  match Dict.get? policyType a1.cfg.policyTypes with
  | none => .other .valueError
  | some policyTypeId =>
    if a1.refuses certificate then .other .valueError
    else a1.put (a1.policyPut policyTypeId policyId payload)

/-- A decision that is emitted. Where the peer accepts it, its record is stored, at the first or
    at the second attempt, exactly if the status poll does not raise; where the emit raises
    something other than an HTTP or breaker error, the audit row is not stored. -/
def Tracked (pl : DecisionPipeline) (m : Moment) (event : TelemetryEvent) (l : Ledger) : Prop :=
  ∀ d, pl.decide m event = .ok d → d.failures = [] → d.certificate.emitBlocked = false →
    envTruthy m.dryRun = false →
      match pl.a1.answer d.policyType d.payload m.policyId d.certificate with
      | .accepted _ =>
        (pl.store.fails l.appends = none ∨ pl.store.fails (l.appends + 1) = none) ↔
          ∃ polled, pl.pollEnforcement m = .ok polled
      | .other _ => pl.store.fails l.appends ≠ none
      | _ => True

/-- A call that returned has appended one record, and one that raised none. -/
def Matched (answer : Except PyErr PipelineResult) (l l' : Ledger) : Prop :=
  match answer with
  | .ok _ => l'.rows.length = l.rows.length + 1
  | .error _ => l'.rows.length = l.rows.length

/-! What `process_event` appends. -/

section
variable {store : EvidenceSink} {l : Ledger}

theorem append_stored (record : DecisionRecord) (stored : store.fails l.appends = none) :
    ∃ after, store.append record l = (.ok (), after) ∧
      after.rows.length = l.rows.length + 1 ∧ after.appends = l.appends + 1 := by
  unfold EvidenceSink.append
  rw [stored]
  exact ⟨_, rfl, by simp, rfl⟩

theorem append_refused (record : DecisionRecord) {e : PyErr}
    (refused : store.fails l.appends = some e) : ∃ after,
      store.append record l = (.error e, after) ∧
        after.rows.length = l.rows.length ∧ after.appends = l.appends + 1 := by
  unfold EvidenceSink.append
  rw [refused]
  exact ⟨_, rfl, rfl, rfl⟩

theorem append_length (record : DecisionRecord) : (store.append record l).2.rows.length =
    if store.fails l.appends = none then l.rows.length + 1 else l.rows.length := by
  cases fate : store.fails l.appends with
  | none =>
    obtain ⟨after, appended, length, _⟩ := append_stored record fate
    rw [appended, if_pos rfl, length]
  | some e =>
    obtain ⟨after, appended, length, _⟩ := append_refused record fate
    rw [appended, if_neg (by simp), length]

/-- The emit by the answer of the peer: only an accepted policy has its record appended. -/
theorem emitPolicy_answer (store : EvidenceSink) (a1 : A1Adapter) (policyType policyId : String)
    (payload : Dict Value) (record : DecisionRecord) (certificate : SafetyCertificate) :
    ∃ sent : Ledger, sent.rows = l.rows ∧ sent.appends = l.appends ∧
      a1.emitPolicy store policyType payload policyId record certificate l =
        match a1.answer policyType payload policyId certificate with
        | .accepted status =>
          match store.append record sent with
          | (.ok _, after) => (.ok (policyId, status), after)
          | (.error _, after) => (.error (.evidencePersist policyId status), after)
        | .httpError status => (.error (.httpError status), sent)
        | .circuitBreakerError => (.error .circuitBreakerError, sent)
        | .other e => (.error (.other e), sent) := by
  unfold A1Adapter.emitPolicy A1Adapter.answer
  cases Dict.get? policyType a1.cfg.policyTypes with
  | none => exact ⟨l, rfl, rfl, rfl⟩
  | some policyTypeId =>
    cases a1.refuses certificate with
    | true => exact ⟨l, rfl, rfl, rfl⟩
    | false =>
      simp only [Bool.false_eq_true, if_false]
      let put := a1.policyPut policyTypeId policyId payload
      let tried : Ledger := { l with puts := l.puts ++ [put] }
      cases a1.put (a1.policyPut policyTypeId policyId payload) with
      | accepted status =>
        exact ⟨{ tried with policiesEmitted := l.policiesEmitted + 1 }, rfl, rfl, rfl⟩
      | httpError status => exact ⟨tried, rfl, rfl, rfl⟩
      | circuitBreakerError => exact ⟨tried, rfl, rfl, rfl⟩
      | other e => exact ⟨tried, rfl, rfl, rfl⟩

end

namespace DecisionPipeline
variable (pl : DecisionPipeline) (m : Moment) (event : TelemetryEvent) (d : Decision) (l : Ledger)

/-- A branch that ends with the append: it returns where that returns. -/
theorem appended_matched (record : DecisionRecord) (r : PipelineResult) {l₀ : Ledger}
    (same : l.rows = l₀.rows) (answer : Except PyErr PipelineResult × Ledger)
    (branch : answer = match pl.store.append record l with
      | (.error e, l) => (.error e, l)
      | (.ok _, l) => (.ok r, l)) : Matched answer.1 l₀ answer.2 := by
  subst branch
  cases fate : pl.store.fails l.appends with
  | none =>
    obtain ⟨after, appended, length, _⟩ := append_stored record fate
    rw [appended]
    exact length.trans (by rw [same])
  | some e =>
    obtain ⟨after, appended, length, _⟩ := append_refused record fate
    rw [appended]
    exact length.trans (by rw [same])

theorem accepted_matched_iff (policyId : String) (status : Int) (persistFailed : Bool)
    {l₀ : Ledger} :
    Matched (pl.accepted m event d policyId status persistFailed l).1 l₀
        (pl.accepted m event d policyId status persistFailed l).2 ↔
      match pl.pollEnforcement m with
      | .ok _ => l.rows.length = l₀.rows.length + 1
      | .error _ => l.rows.length = l₀.rows.length := by
  unfold accepted
  cases pl.pollEnforcement m with
  | error e => exact Iff.rfl
  | ok polled => exact Iff.rfl

theorem emit_matched_iff : Matched (pl.emit m event d l).1 l (pl.emit m event d l).2 ↔
    match pl.a1.answer d.policyType d.payload m.policyId d.certificate with
    | .accepted _ =>
      (pl.store.fails l.appends = none ∨ pl.store.fails (l.appends + 1) = none) ↔
        ∃ polled, pl.pollEnforcement m = .ok polled
    | .other _ => pl.store.fails l.appends ≠ none
    | _ => True := by
  obtain ⟨sent, rows, appends, emitted⟩ := emitPolicy_answer (l := l) pl.store pl.a1 d.policyType
    m.policyId d.payload d.record d.certificate
  unfold emit
  rw [emitted]
  cases answer : pl.a1.answer d.policyType d.payload m.policyId d.certificate with
  | accepted status =>
    dsimp only
    rw [← appends]
    cases first : pl.store.fails sent.appends with
    | none =>
      obtain ⟨after, appended, length, _⟩ := append_stored d.record first
      rw [appended]
      dsimp only
      rw [accepted_matched_iff, length, rows]
      cases pl.pollEnforcement m <;> simp
    | some e =>
      obtain ⟨after, appended, length, next⟩ := append_refused d.record first
      rw [appended]
      dsimp only
      rw [accepted_matched_iff, append_length, next, length, rows]
      cases pl.pollEnforcement m <;> cases pl.store.fails (sent.appends + 1) <;> simp
  | httpError status =>
    exact iff_of_true (appended_matched pl sent _ _ rows _ rfl) trivial
  | circuitBreakerError =>
    exact iff_of_true (appended_matched pl sent _ _ rows _ rfl) trivial
  | other e =>
    dsimp only
    unfold Matched
    rw [append_length, appends, rows]
    cases pl.store.fails l.appends <;> simp

/-- Exactly on the tracked calls the answer says how many records were appended. -/
theorem processEvent_matched_iff : Matched (pl.processEvent m event l).1 l
    (pl.processEvent m event l).2 ↔ Tracked pl m event l := by
  unfold processEvent Tracked
  cases decided : pl.decide m event with
  | error e => simp [Matched]
  | ok d =>
    simp only [Except.ok.injEq, forall_eq']
    unfold dispatch
    by_cases stopped : (!d.failures.isEmpty || d.certificate.emitBlocked) = true
    · rw [if_pos stopped]
      refine iff_of_true (appended_matched pl l _ _ rfl _ rfl) fun none_ free => ?_
      simp [none_, free] at stopped
    · rw [if_neg stopped]
      have passed : d.failures = [] ∧ d.certificate.emitBlocked = false := by
        simpa using stopped
      simp only [passed.1, passed.2, true_imp_iff]
      cases dry : envTruthy m.dryRun with
      | true => exact iff_of_true (appended_matched pl l _ _ rfl _ rfl) (by simp)
      | false =>
        simp only [true_imp_iff, Bool.false_eq_true, if_false]
        exact emit_matched_iff pl m event d l

/-! The flags of a result. -/

/-- Accepted is what is neither blocked nor a dry run nor failed. -/
def Sorted (answer : Except PyErr PipelineResult) : Prop :=
  ∀ r, answer = .ok r → r.accepted = (!r.blocked && !r.dryRun && !r.emitFailed)

theorem appended_sorted (record : DecisionRecord) {r : PipelineResult}
    (flags : r.accepted = (!r.blocked && !r.dryRun && !r.emitFailed))
    (answer : Except PyErr PipelineResult × Ledger)
    (branch : answer = match pl.store.append record l with
      | (.error e, l) => (.error e, l)
      | (.ok _, l) => (.ok r, l)) : Sorted answer.1 := by
  intro r' returned
  subst branch
  split at returned
  · cases returned
  · cases returned
    exact flags

theorem accepted_sorted (policyId : String) (status : Int) (persistFailed : Bool) :
    Sorted (pl.accepted m event d policyId status persistFailed l).1 := by
  intro r returned
  unfold accepted at returned
  split at returned
  · cases returned
  · cases returned
    rfl

theorem emit_sorted : Sorted (pl.emit m event d l).1 := by
  unfold emit
  split
  · exact accepted_sorted pl m event d _ _ _ _
  · exact accepted_sorted pl m event d _ _ _ _
  · exact appended_sorted pl _ _ rfl _ rfl
  · exact appended_sorted pl _ _ rfl _ rfl
  · intro r returned
    cases returned

theorem processEvent_sorted : Sorted (pl.processEvent m event l).1 := by
  unfold processEvent
  split
  · intro r returned
    cases returned
  · unfold dispatch
    split
    · exact appended_sorted pl _ _ rfl _ rfl
    · split
      · exact appended_sorted pl _ _ rfl _ rfl
      · exact emit_sorted pl m event _ l

end DecisionPipeline

/-! What each step does to the counters. -/

namespace Daemon
variable {σ : Type} {py : Interpreter} {source : Source σ} {cfg : DaemonConfig} {d d' : Daemon σ}

/-- The counters of events are left as they are, but for an event that is taken. -/
structure SameCounts (d d' : Daemon σ) : Prop where
  outcomes : d'.outcomes = d.outcomes
  accepted : d'.nAccepted = d.nAccepted
  emitted : d'.checkpoint.decisionsEmitted = d.checkpoint.decisionsEmitted
  events : d'.nEvents - d'.pending = d.nEvents - d.pending

theorem save_emitted {c saved : StateCheckpoint} {utc text : String}
    (written : c.save py utc = .ok (saved, text)) :
    saved.decisionsEmitted = c.decisionsEmitted := by
  obtain ⟨_, _, same⟩ := bind_eq_ok written
  cases same
  rfl

theorem saveState_counts {utc : String} (saved : d.saveState py utc = some d') :
    SameCounts d d' := by
  obtain ⟨checkpoint, text, written, rfl⟩ := saveState_some saved
  exact ⟨rfl, rfl, save_emitted written, rfl⟩

theorem afterEvent_counts (phase : d.phase = .timing) : SameCounts d (d.afterEvent cfg) := by
  refine ⟨rfl, rfl, rfl, ?_⟩
  unfold afterEvent pending
  by_cases limit : cfg.once ∧ cfg.onceMaxEvents ≤ d.nEvents <;> simp [limit, phase]

theorem takeNext_counts (phase : d.phase = .racing) (outcome : Anext TelemetryEvent) :
    SameCounts d (d.takeNext outcome) := by
  cases outcome with
  | event e =>
    refine ⟨rfl, rfl, rfl, ?_⟩
    simp [takeNext, pending, phase]
  | stopAsyncIteration => exact ⟨rfl, rfl, rfl, by simp [takeNext, pending, phase]⟩
  | raised e => exact ⟨rfl, rfl, rfl, by simp [takeNext, pending, phase]⟩

theorem SameCounts.trans {d'' : Daemon σ} (one : SameCounts d d') (two : SameCounts d' d'') :
    SameCounts d d'' :=
  ⟨two.outcomes.trans one.outcomes, two.accepted.trans one.accepted, two.emitted.trans one.emitted,
    two.events.trans one.events⟩

/-- Every step of the loop but the end of `process_event`. -/
theorem step_counts {input : Input} (next : d.step py source cfg input = some d')
    (notReturned : ∀ r, input ≠ .result r) (notRaised : input ≠ .raises) : SameCounts d d' := by
  cases input with
  | signal =>
    cases next
    exact ⟨rfl, rfl, rfl, rfl⟩
  | head =>
    obtain ⟨phase, rfl⟩ := step_head next
    refine ⟨rfl, rfl, rfl, ?_⟩
    unfold pending
    cases d.stop <;> simp [phase]
  | anext =>
    obtain ⟨phase, outcome, stream, _, rfl⟩ := step_anext next
    have taken : SameCounts _ _ := takeNext_counts (d := { d with
      stream, malformed := d.malformed + source.counted d.stream }) phase outcome
    exact ⟨taken.outcomes, taken.accepted, taken.emitted, taken.events⟩
  | stopped =>
    rw [step] at next
    split at next
    · rename_i phase
      split at next
      · cases next
        exact ⟨rfl, rfl, rfl, by simp [pending, phase]⟩
      · cases next
    · cases next
  | result r => exact absurd rfl (notReturned r)
  | raises => exact absurd rfl notRaised
  | clock now utc =>
    obtain ⟨phase, rfl | ⟨saved, written, rfl⟩⟩ := step_clock next
    · exact afterEvent_counts phase
    · have kept : saved.phase = .timing := by
        obtain ⟨_, _, _, rfl⟩ := saveState_some written
        exact phase
      have stamped : SameCounts saved { saved with lastCheckpointAt := now } :=
        ⟨rfl, rfl, rfl, rfl⟩
      exact ((saveState_counts written).trans stamped).trans (afterEvent_counts kept)
  | finish utc =>
    obtain ⟨phase, saved, written, rfl⟩ := step_finish next
    have kept : saved.phase = .leaving := by
      obtain ⟨_, _, _, rfl⟩ := saveState_some written
      exact phase
    refine (saveState_counts written).trans ⟨rfl, rfl, rfl, ?_⟩
    simp [pending, kept]

/-- What counting one answer does: the event at hand is settled under one outcome. -/
structure CountedOne (d d' : Daemon σ) (answer : Except PyErr PipelineResult) : Prop where
  settled : d'.AllCounted
  events : d'.nEvents = d.nEvents
  outcomes : d'.outcomes = d.outcomes + 1
  accepted : d'.nAccepted = d.nAccepted + if shipped answer then 1 else 0
  emitted : d'.checkpoint.decisionsEmitted = d.checkpoint.decisionsEmitted +
    if shipped answer then 1 else 0

theorem tally_counted {r : PipelineResult} (sorted : DecisionPipeline.Sorted (.ok r)) :
    (d.tally r).nEvents = d.nEvents ∧ (d.tally r).outcomes = d.outcomes + 1 ∧
      (d.tally r).nAccepted = (d.nAccepted + if shipped (.ok r) then 1 else 0) ∧
      (d.tally r).checkpoint.decisionsEmitted = (d.checkpoint.decisionsEmitted +
        if shipped (.ok r) then 1 else 0) := by
  have flags : shipped (.ok r) = (!r.blocked && !r.dryRun && !r.emitFailed) := sorted r rfl
  rw [flags]
  unfold tally outcomes
  split
  · rename_i blocked
    simp [blocked]
    omega
  · split
    · rename_i dry
      simp [dry]
      omega
    · split
      · rename_i failed
        simp [failed]
        omega
      · rename_i free live sent
        simp [free, live, sent]
        omega

theorem result_counted {r : PipelineResult} (sorted : DecisionPipeline.Sorted (.ok r))
    (next : d.step py source cfg (.result r) = some d') : CountedOne d d' (.ok r) := by
  obtain ⟨event, _, rfl⟩ := step_result next
  obtain ⟨events, outcomes, accepted, emitted⟩ := tally_counted (d := d) sorted
  exact ⟨fun _ same => (by cases same), events, outcomes, accepted, emitted⟩

theorem raises_counted {e : PyErr} (next : d.step py source cfg .raises = some d') :
    CountedOne d d' (.error e) := by
  obtain ⟨event, _, rfl⟩ := step_raises next
  refine ⟨fun _ same => (by cases same), rfl, ?_, rfl, (add_zero _).symm⟩
  unfold outcomes
  push_cast
  omega

end Daemon

namespace AccountedDaemon
variable {σ : Type} {py : Interpreter} {source : Source σ} {cfg : DaemonConfig}
  {start s s' : AccountedDaemon σ}

/-- A step of the loop leaves ledger and answers alone; only the last one counts the store. -/
theorem step_loop {input : Input} (next : s.step py source cfg (.loop input) = some s') :
    Daemon.SameCounts s.daemon s'.daemon ∧ s'.ledger = s.ledger ∧ s'.answers = s.answers ∧
      (s.AuditTrue → s'.AuditTrue) := by
  cases input with
  | result r => cases next
  | raises => cases next
  | finish utc =>
    rw [step] at next
    obtain ⟨daemon, moved, rfl⟩ := Option.map_eq_some_iff.mp next
    exact ⟨Daemon.step_counts moved (by simp) (by simp), rfl, rfl, fun _ => ⟨rfl, rfl⟩⟩
  | _ =>
    simp only [step] at next
    obtain ⟨daemon, moved, rfl⟩ := Option.map_eq_some_iff.mp next
    exact ⟨Daemon.step_counts moved (by simp) (by simp), rfl, rfl, fun same => same⟩

/-- A call of `process_event`: `audit_len` grows where it returned. -/
theorem step_call {pl : DecisionPipeline} {m : Moment}
    (next : s.step py source cfg (.call pl m) = some s') :
    ∃ event, s.daemon.phase = .deciding event ∧
      s'.ledger = (pl.processEvent m event s.ledger).2 ∧
      s'.answers = s.answers ++ [(pl.processEvent m event s.ledger).1] ∧
      Daemon.CountedOne s.daemon s'.daemon (pl.processEvent m event s.ledger).1 ∧
      (s.AuditTrue → (s'.AuditTrue ↔
        Matched (pl.processEvent m event s.ledger).1 s.ledger s'.ledger)) := by
  rw [step] at next
  split at next
  · rename_i event phase
    refine ⟨event, phase, ?_⟩
    have sorted := DecisionPipeline.processEvent_sorted pl m event s.ledger
    unfold handle at next
    split at next
    · rename_i r ledger answered
      obtain ⟨daemon, moved, rfl⟩ := Option.map_eq_some_iff.mp next
      rw [answered] at sorted ⊢
      refine ⟨rfl, rfl, Daemon.result_counted sorted moved, fun ⟨length, _⟩ => ?_⟩
      unfold AuditTrue Matched
      rw [length, and_self]
      exact eq_comm
    · rename_i e ledger answered
      obtain ⟨daemon, moved, rfl⟩ := Option.map_eq_some_iff.mp next
      rw [answered]
      refine ⟨rfl, rfl, Daemon.raises_counted moved, fun ⟨length, gauge⟩ => ?_⟩
      unfold AuditTrue Matched
      rw [length, gauge, and_self]
      exact eq_comm
  · cases next

theorem step_counted (counted : Counted start s) {happened : LoopEvent}
    (next : s.step py source cfg happened = some s') : Counted start s' := by
  obtain ⟨events, answered, accepted, emitted⟩ := counted
  cases happened with
  | loop input =>
    obtain ⟨same, _, answers, _⟩ := step_loop next
    refine ⟨?_, ?_, ?_, ?_⟩
    · have := same.events
      rw [same.outcomes]
      omega
    · rw [same.outcomes, answers, answered]
    · rw [same.accepted, answers, accepted]
    · rw [same.emitted, same.accepted, emitted]
  | call pl m =>
    obtain ⟨event, phase, _, answers, one, _⟩ := step_call next
    have before : s.daemon.pending = 1 := by
      rw [Daemon.pending, phase]
    have after : s'.daemon.pending = 0 := by
      unfold Daemon.pending
      split
      · rename_i event' deciding
        exact absurd deciding (one.settled event')
      · rfl
    refine ⟨?_, ?_, ?_, ?_⟩
    · rw [one.events, one.outcomes, after]
      omega
    · rw [one.outcomes, answers, answered, List.length_append]
      simp
    · rw [one.accepted, answers, accepted, List.countP_append, List.countP_singleton]
    · rw [one.emitted, one.accepted, emitted]
      split <;> simp [add_assoc]

/-! Runs of the loop. -/

/-- What `audit_len` needs of an event. -/
def Meets (s : AccountedDaemon σ) : LoopEvent → Prop
  | .loop _ => True
  | .call pl m => ∀ event, s.daemon.phase = .deciding event → Tracked pl m event s.ledger

theorem step_audit_iff {happened : LoopEvent} (next : s.step py source cfg happened = some s')
    (audit : s.AuditTrue) : s'.AuditTrue ↔ s.Meets happened := by
  cases happened with
  | loop input =>
    obtain ⟨_, _, _, kept⟩ := step_loop next
    exact iff_of_true (kept audit) trivial
  | call pl m =>
    obtain ⟨event, phase, ledger, _, _, matched⟩ := step_call next
    rw [matched audit, ledger, DecisionPipeline.processEvent_matched_iff]
    constructor
    · intro tracked event' deciding
      rw [phase] at deciding
      cases deciding
      exact tracked
    · intro meets
      exact meets event phase

/-- An event that cannot take place asks for nothing. -/
theorem meets_of_refused {happened : LoopEvent} (refused : s.step py source cfg happened = none) :
    s.Meets happened := by
  cases happened with
  | loop input => trivial
  | call pl m =>
    intro event phase
    exfalso
    simp only [step, handle, phase] at refused
    split at refused
    · simp [Daemon.step, phase] at refused
    · simp [Daemon.step, phase] at refused

/-- An event that breaks the count is seen at once. -/
theorem settled_of_unmet {happened : LoopEvent} (next : s.step py source cfg happened = some s')
    (unmet : ¬s.Meets happened) : s'.daemon.AllCounted := by
  cases happened with
  | loop input => exact absurd trivial unmet
  | call pl m =>
    obtain ⟨_, _, _, _, one, _⟩ := step_call next
    exact one.settled

theorem audit_along_iff (events : List LoopEvent) (audit : s.AuditTrue) :
    (∀ before after s', events = before ++ after →
      run (step py source cfg) s before = some s' → s'.daemon.AllCounted → s'.AuditTrue) ↔
      Along (step py source cfg) Meets s events :=
  holds_along_iff (fun _ _ _ audit next => step_audit_iff next audit)
    (fun _ _ _ next unmet => settled_of_unmet next unmet)
    (fun _ _ refused => meets_of_refused refused) audit events

theorem run_counted (events : List LoopEvent) (counted : Counted start s)
    (reached : run (step py source cfg) s events = some s') : Counted start s' :=
  run_invariant (Counted start) (fun _ _ _ kept next => step_counted kept next) counted reached

theorem boot_counted (stream : AsyncGenerator σ) (checkpoint : StateCheckpoint)
    (stateFile : StateFile) (now : ℚ) (ledger : Ledger) :
    Counted (boot stream checkpoint stateFile now ledger)
      (boot stream checkpoint stateFile now ledger) :=
  ⟨rfl, rfl, rfl, (add_zero _).symm⟩

theorem Counted.accounts (counted : Counted start s) (settled : s.daemon.AllCounted)
    (audit : s.AuditTrue) : Accounts start s := by
  refine ⟨?_, counted.accepted, counted.emitted, audit⟩
  have none_ : s.daemon.pending = 0 := by
    unfold Daemon.pending
    split
    · rename_i event deciding
      exact absurd deciding (settled event)
    · rfl
  rw [counted.events, none_, add_zero]

end AccountedDaemon

open AccountedDaemon in
/-- In every run of the loop, from any checkpoint and store: the daemon's account is right whenever
    an event has been counted, exactly if every call of `process_event` that was made is one whose
    answer tells how many records it appended. -/
theorem accounts_iff {σ : Type} (py : Interpreter) (source : Source σ) (cfg : DaemonConfig)
    (stream : AsyncGenerator σ) (checkpoint : StateCheckpoint) (stateFile : StateFile) (now : ℚ)
    (ledger : Ledger) (events : List LoopEvent) :
    (∀ before after s, events = before ++ after →
      run (step py source cfg) (boot stream checkpoint stateFile now ledger) before = some s →
      s.daemon.AllCounted → Accounts (boot stream checkpoint stateFile now ledger) s) ↔
      Along (step py source cfg) Meets (boot stream checkpoint stateFile now ledger) events := by
  have audit : (boot stream checkpoint stateFile now ledger).AuditTrue := ⟨rfl, rfl⟩
  rw [← audit_along_iff events audit]
  constructor
  · intro all before after s parts reached settled
    exact (all before after s parts reached settled).audit
  · intro all before after s parts reached settled
    have counted := run_counted before (boot_counted stream checkpoint stateFile now ledger) reached
    exact counted.accounts settled (all before after s parts reached settled)

/-! A PUT that fails with an exception that httpx does not derive from `HTTPError`. -/

def invalidUrlPipeline : DecisionPipeline :=
  { samplePipeline with a1 := { put := fun _ => .other (.other "InvalidURL") } }

/-- One event, and then the end of the stream. -/
def oneEvent : Source Bool where
  body fresh := if fresh then some (.yields sampleEvent false) else some .returns

def takenEvent : AccountedDaemon Bool :=
  { AccountedDaemon.boot (.suspended true) {} .missing 0 {} with
    daemon :=
      { Daemon.boot (.suspended true) {} .missing 0 with
        stream := .suspended false
        phase := .deciding sampleEvent
        nEvents := 1
        log := [.handed sampleEvent] } }

open AccountedDaemon in
/-- The audit row is appended, the exception raised again, and the daemon counts no record. -/
theorem appendedThenRaised_uncounted : ∃ s,
    run (step plainInterpreter oneEvent {}) (boot (.suspended true) {} .missing 0 {})
        [.loop .head, .loop .anext, .call invalidUrlPipeline sampleMoment] = some s ∧
      s.daemon.AllCounted ∧ s.ledger.rows.length = 1 ∧ s.auditLen = 0 ∧
      ¬Accounts (boot (.suspended true) {} .missing 0 {}) s := by
  have reached : run (step plainInterpreter oneEvent {}) (boot (.suspended true) {} .missing 0 {})
      [.loop .head, .loop .anext] = some takenEvent := rfl
  have rows : (invalidUrlPipeline.processEvent sampleMoment sampleEvent {}).2.rows.length = 1 := by
    decide +kernel
  have raised : (invalidUrlPipeline.processEvent sampleMoment sampleEvent {}).1.isOk = false := by
    decide +kernel
  rcases answered : invalidUrlPipeline.processEvent sampleMoment sampleEvent {} with
    ⟨answer, ledger⟩
  rw [answered] at rows raised
  cases answer with
  | ok r => cases raised
  | error e =>
    have called : step plainInterpreter oneEvent {} takenEvent
        (.call invalidUrlPipeline sampleMoment) =
        some { takenEvent with
          daemon :=
            { takenEvent.daemon with
              phase := .looping
              nErrors := 1
              log := [.handed sampleEvent, .raised sampleEvent] }
          ledger
          answers := [.error e] } := by
      show takenEvent.handle plainInterpreter oneEvent {} invalidUrlPipeline sampleMoment
        sampleEvent = _
      unfold handle
      rw [show invalidUrlPipeline.processEvent sampleMoment sampleEvent takenEvent.ledger =
        (.error e, ledger) from answered]
      rfl
    rw [show [LoopEvent.loop .head, .loop .anext, .call invalidUrlPipeline sampleMoment] =
      [.loop .head, .loop .anext] ++ [.call invalidUrlPipeline sampleMoment] from rfl, run_append,
      reached, Option.bind_some, run_cons called, run]
    refine ⟨_, rfl, fun event same => (by cases same), rows, rfl, fun accounts => ?_⟩
    have length : 0 = ledger.rows.length := accounts.audit.1
    have stored : ledger.rows.length = 1 := rows
    omega

end HorizonRic.Rapp
