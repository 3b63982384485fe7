import HorizonRic.Rapp.LifecycleState
import HorizonRic.Rapp.A1Adapter
import HorizonRic.Shield.TamperEvidence
import HorizonRic.Evidence.Append
import HorizonRic.Library.Machine

/-!
The count of emitted policies across restarts. A run is made of processes: emits, periodic
checkpoints, the final checkpoint of an orderly shutdown and the drain after it, kills and
restarts. The written count is compared with the PUTs that the peer accepted.
-/
namespace HorizonRic.EmittedCount

open Py Evidence Rapp Json

def isAccepted : PutOutcome → Bool
  | .accepted _ => true
  | _ => false

/-- One call of `emit_policy`, with the peer as it answers then. -/
structure EmitCall where
  a1 : A1Adapter
  store : EvidenceSink
  policyType : String
  payload : Dict Value
  policyId : String
  record : DecisionRecord
  certificate : SafetyCertificate

namespace EmitCall

def emit (call : EmitCall) (l : Ledger) : Ledger :=
  (call.a1.emitPolicy call.store call.policyType call.payload call.policyId call.record
    call.certificate l).2

/-- The call sends its PUT, and the peer accepts it. -/
def accepted (call : EmitCall) : Bool :=
  match Dict.get? call.policyType call.a1.cfg.policyTypes with
  | none => false
  | some policyTypeId =>
    !call.a1.refuses call.certificate &&
      isAccepted (call.a1.put (call.a1.policyPut policyTypeId call.policyId call.payload))

theorem append_policiesEmitted (store : EvidenceSink) (record : DecisionRecord) (l : Ledger) :
    (store.append record l).2.policiesEmitted = l.policiesEmitted := by
  unfold EvidenceSink.append
  split <;> rfl

/-- The adapter counts the accepted PUTs, whether or not the record can be stored. -/
theorem emit_policiesEmitted (call : EmitCall) (l : Ledger) :
    (call.emit l).policiesEmitted = l.policiesEmitted + if call.accepted then 1 else 0 := by
  unfold emit accepted A1Adapter.emitPolicy
  cases Dict.get? call.policyType call.a1.cfg.policyTypes with
  | none => rfl
  | some policyTypeId =>
    dsimp only
    cases call.a1.refuses call.certificate with
    | true => rfl
    | false =>
      simp only [Bool.false_eq_true, if_false, Bool.not_false, Bool.true_and]
      cases call.a1.put (call.a1.policyPut policyTypeId call.policyId call.payload) with
      | accepted status =>
        have counted := append_policiesEmitted call.store call.record
          { l with
            puts := l.puts ++ [call.a1.policyPut policyTypeId call.policyId call.payload]
            policiesEmitted := l.policiesEmitted + 1 }
        dsimp only [isAccepted] at counted ⊢
        split
        · rename_i appended
          rw [appended] at counted
          exact counted
        · rename_i appended
          rw [appended] at counted
          exact counted
      | httpError status => rfl
      | circuitBreakerError => rfl
      | other e => rfl

end EmitCall

structure Process where
  counters : EmitCounters
  ledger : Ledger
  /-- The final checkpoint is written, and planner tasks are drained. -/
  draining : Bool
  /-- PUTs accepted before this process that no checkpoint has, although no kill came
      after them. -/
  unsaved : ℕ

structure Checkpoint where
  written : Int
  accepted : ℕ

/-- The state file, the process, the PUTs accepted since the first start without those that
    a kill lost, how many of them there were at the last checkpoint, and the checkpoints. -/
structure World where
  disk : StateFile
  process : Option Process
  accepted : ℕ
  covered : ℕ
  checkpoints : List Checkpoint

inductive Event (py : Interpreter) where
  | start
  | emit (call : EmitCall)
  | checkpoint (fields : RuntimeFields py) (diskOk : Bool)
  | finalCheckpoint (fields : RuntimeFields py) (diskOk : Bool)
  | stopped
  | kill

def World.first : World := ⟨.missing, none, 0, 0, []⟩

/-- The counters as `_state_snapshot` reads them. -/
def Process.snapshot (p : Process) : EmitCounters :=
  { p.counters with policiesEmitted := p.ledger.policiesEmitted }

section
variable {py : Interpreter}

/-- `save_state` of a snapshot: an error is logged, and the file stays. -/
def World.save (w : World) (p : Process) (fields : RuntimeFields py) (diskOk : Bool) : World :=
  match saveState py (p.snapshot.stateSnapshot fields) with
  | .error _ => w
  | .ok text =>
    if diskOk then
      { w with
        disk := .text text
        covered := w.accepted
        checkpoints := w.checkpoints ++ [⟨p.snapshot.writtenCount, w.accepted⟩] }
    else w

def step (w : World) : Event py → Option World
  | .start =>
    match w.process, restoreFromDisk py w.disk with
    | none, .ok counters =>
      some { w with process := some ⟨counters, {}, false, w.accepted - w.covered⟩ }
    | _, _ => none
  | .emit call =>
    match w.process with
    | none => none
    | some p =>
      some { w with
        process := some { p with ledger := call.emit p.ledger }
        accepted := w.accepted + if call.accepted then 1 else 0 }
  | .checkpoint fields diskOk =>
    match w.process with
    | some p => if p.draining then none else some (w.save p fields diskOk)
    | none => none
  | .finalCheckpoint fields diskOk =>
    match w.process with
    | some p =>
      if p.draining then none
      else some { w.save p fields diskOk with process := some { p with draining := true } }
    | none => none
  | .stopped =>
    match w.process with
    | some p => if p.draining then some { w with process := none } else none
    | none => none
  | .kill =>
    match w.process with
    | some _ => some { w with process := none, accepted := w.covered }
    | none => none

/-- The checkpoint is written by a process that restored no count or emitted nothing, and
    nothing that an orderly shutdown let through is missing from the file. -/
def Counts (p : Process) : Prop :=
  p.unsaved = 0 ∧ (p.counters.a1EmittedCount = 0 ∨ p.ledger.policiesEmitted = 0)

/-- The snapshot reaches the disk. -/
def Saves (p : Process) (fields : RuntimeFields py) (diskOk : Bool) : Prop :=
  diskOk = true ∧ ∃ text, saveState py (p.snapshot.stateSnapshot fields) = .ok text

def Meets (w : World) : Event py → Prop
  | .checkpoint fields diskOk => ∀ p, w.process = some p → Saves p fields diskOk → Counts p
  | .finalCheckpoint fields diskOk => ∀ p, w.process = some p → Saves p fields diskOk → Counts p
  | _ => True

def Checkpoint.right (c : Checkpoint) : Prop := c.written = c.accepted

/-- What holds while every checkpoint is right. -/
structure Kept (py : Interpreter) (w : World) : Prop where
  covered : w.covered ≤ w.accepted
  disk : restoreFromDisk py w.disk = .ok ⟨w.covered, .null, .null, 0⟩
  process : ∀ p, w.process = some p → p.counters.Unset ∧
    ∃ restored : ℕ, p.counters.a1EmittedCount = restored ∧
      w.accepted = restored + p.unsaved + p.ledger.policiesEmitted

variable {w w' : World} {p : Process}

theorem first_kept (py : Interpreter) : Kept py World.first where
  covered := Nat.le_refl 0
  disk := rfl
  process p running := by cases running

/-- A checkpoint is right exactly under the condition. -/
theorem written_right_iff (kept : Kept py w) (running : w.process = some p) :
    (⟨p.snapshot.writtenCount, w.accepted⟩ : Checkpoint).right ↔ Counts p := by
  obtain ⟨_, restored, count, total⟩ := kept.process p running
  unfold Checkpoint.right EmitCounters.writtenCount Process.snapshot Counts
  dsimp only
  rw [count, total]
  split <;> omega

theorem save_unwritten {fields : RuntimeFields py} {diskOk : Bool}
    (unwritten : ¬ Saves p fields diskOk) : w.save p fields diskOk = w := by
  unfold World.save
  split
  · rfl
  · rename_i text saved
    split
    · rename_i ok
      exact absurd ⟨ok, text, saved⟩ unwritten
    · rfl

theorem save_written {fields : RuntimeFields py} {diskOk : Bool} (written : Saves p fields diskOk) :
    ∃ text, saveState py (p.snapshot.stateSnapshot fields) = .ok text ∧
      w.save p fields diskOk = { w with
        disk := .text text
        covered := w.accepted
        checkpoints := w.checkpoints ++ [⟨p.snapshot.writtenCount, w.accepted⟩] } := by
  obtain ⟨ok, text, saved⟩ := written
  refine ⟨text, saved, ?_⟩
  rw [World.save, saved]
  exact if_pos ok

theorem save_kept {fields : RuntimeFields py} {diskOk : Bool} (kept : Kept py w)
    (running : w.process = some p) (right : Saves p fields diskOk → Counts p) :
    Kept py (w.save p fields diskOk) := by
  by_cases written : Saves p fields diskOk
  · have count : p.snapshot.writtenCount = w.accepted :=
      (written_right_iff kept running).mpr (right written)
    obtain ⟨text, saved, after⟩ := save_written (w := w) written
    rw [after]
    constructor
    · exact Nat.le_refl _
    · have unset : p.snapshot.Unset := (kept.process p running).1
      rw [restore_saved unset fields saved, count]
    · exact kept.process
  · rw [save_unwritten written]
    exact kept

theorem save_log (fields : RuntimeFields py) (diskOk : Bool) (kept : Kept py w)
    (running : w.process = some p) : ∃ new,
      (w.save p fields diskOk).checkpoints = w.checkpoints ++ new ∧
        ((∀ c ∈ new, c.right) ↔ (Saves p fields diskOk → Counts p)) := by
  by_cases written : Saves p fields diskOk
  · obtain ⟨text, _, after⟩ := save_written (w := w) written
    refine ⟨[⟨p.snapshot.writtenCount, w.accepted⟩], by rw [after], ?_⟩
    rw [List.forall_mem_singleton, written_right_iff kept running]
    exact ⟨fun counts _ => counts, fun counts => counts written⟩
  · refine ⟨[], by rw [save_unwritten written, List.append_nil], ?_⟩
    constructor
    · intro _ saves
      exact absurd saves written
    · intro _ c member
      cases member

theorem save_process (fields : RuntimeFields py) (diskOk : Bool) :
    (w.save p fields diskOk).process = w.process := by
  unfold World.save
  split
  · rfl
  · split <;> rfl

/-- A process that goes on with the same counters. -/
theorem kept_of_process {q : Process} (kept : Kept py w) (running : w.process = some p)
    (counters : q.counters = p.counters) (ledger : q.ledger = p.ledger)
    (unsaved : q.unsaved = p.unsaved) : Kept py { w with process := some q } where
  covered := kept.covered
  disk := kept.disk
  process r same := by
    cases same
    rw [counters, ledger, unsaved]
    exact kept.process p running

/-- What an event does, and when it can happen. -/
def Does (w w' : World) : Event py → Prop
  | .start => ∃ counters, w.process = none ∧ restoreFromDisk py w.disk = .ok counters ∧
      w' = { w with process := some ⟨counters, {}, false, w.accepted - w.covered⟩ }
  | .emit call => ∃ p, w.process = some p ∧
      w' = { w with
        process := some { p with ledger := call.emit p.ledger }
        accepted := w.accepted + if call.accepted then 1 else 0 }
  | .checkpoint fields diskOk => ∃ p, w.process = some p ∧ w' = w.save p fields diskOk
  | .finalCheckpoint fields diskOk => ∃ p, w.process = some p ∧
      w' = { w.save p fields diskOk with process := some { p with draining := true } }
  | .stopped => w' = { w with process := none }
  | .kill => w' = { w with process := none, accepted := w.covered }

theorem step_does {e : Event py} (next : step w e = some w') : Does w w' e := by
  cases e with
  | start =>
    rw [step] at next
    split at next
    · rename_i counters idle restored
      cases next
      exact ⟨counters, idle, restored, rfl⟩
    · cases next
  | emit call =>
    rw [step] at next
    split at next
    · cases next
    · rename_i p running
      cases next
      exact ⟨p, running, rfl⟩
  | checkpoint fields diskOk | finalCheckpoint fields diskOk =>
    rw [step] at next
    split at next
    · rename_i p running
      split at next
      · cases next
      · cases next
        exact ⟨p, running, rfl⟩
    · cases next
  | stopped =>
    rw [step] at next
    split at next
    · split at next
      · cases next
        rfl
      · cases next
    · cases next
  | kill =>
    rw [step] at next
    split at next
    · cases next
      rfl
    · cases next

theorem step_kept (kept : Kept py w) (e : Event py) (met : Meets w e)
    (next : step w e = some w') : Kept py w' := by
  have covered := kept.covered
  have done := step_does next
  cases e with
  | start =>
    obtain ⟨counters, _, restored, rfl⟩ := done
    rw [kept.disk] at restored
    cases restored
    refine ⟨kept.covered, kept.disk, ?_⟩
    intro p same
    cases same
    refine ⟨⟨rfl, rfl⟩, w.covered, rfl, ?_⟩
    dsimp only
    omega
  | emit call =>
    obtain ⟨p, running, rfl⟩ := done
    refine ⟨?_, kept.disk, ?_⟩
    · dsimp only
      omega
    · intro q same
      cases same
      obtain ⟨unset, restored, count, total⟩ := kept.process p running
      refine ⟨unset, restored, count, ?_⟩
      dsimp only
      rw [call.emit_policiesEmitted]
      omega
  | checkpoint fields diskOk =>
    obtain ⟨p, running, rfl⟩ := done
    exact save_kept kept running (met p running)
  | finalCheckpoint fields diskOk =>
    obtain ⟨p, running, rfl⟩ := done
    have saved := save_kept kept running (met p running)
    exact kept_of_process saved ((save_process fields diskOk).trans running) rfl rfl rfl
  | stopped =>
    cases done
    exact ⟨kept.covered, kept.disk, fun p running => by cases running⟩
  | kill =>
    cases done
    exact ⟨Nat.le_refl _, kept.disk, fun p running => by cases running⟩

/-- What a step can do to the checkpoints: nothing, or a save of the process at hand. -/
theorem step_cases {e : Event py} (next : step w e = some w') :
    (w'.checkpoints = w.checkpoints ∧ Meets w e) ∨
      ∃ (p : Process) (fields : RuntimeFields py) (diskOk : Bool), w.process = some p ∧
        w'.checkpoints = (w.save p fields diskOk).checkpoints ∧
        (Meets w e ↔ (Saves p fields diskOk → Counts p)) := by
  have one : ∀ {p : Process} {fields : RuntimeFields py} {diskOk : Bool},
      w.process = some p →
      ((∀ q, w.process = some q → Saves q fields diskOk → Counts q) ↔
        (Saves p fields diskOk → Counts p)) := by
    intro p fields diskOk running
    constructor
    · intro all
      exact all p running
    · intro counts q same
      rw [running] at same
      cases same
      exact counts
  have done := step_does next
  cases e with
  | start =>
    obtain ⟨counters, _, _, rfl⟩ := done
    exact Or.inl ⟨rfl, trivial⟩
  | emit call =>
    obtain ⟨p, _, rfl⟩ := done
    exact Or.inl ⟨rfl, trivial⟩
  | checkpoint fields diskOk | finalCheckpoint fields diskOk =>
    obtain ⟨p, running, rfl⟩ := done
    exact Or.inr ⟨p, fields, diskOk, running, rfl, one running⟩
  | stopped | kill =>
    cases done
    exact Or.inl ⟨rfl, trivial⟩

/-- What a step appends to the checkpoints is right exactly if it meets the condition. -/
theorem step_log (kept : Kept py w) (e : Event py) (next : step w e = some w') : ∃ new,
    w'.checkpoints = w.checkpoints ++ new ∧ ((∀ c ∈ new, c.right) ↔ Meets w e) := by
  rcases step_cases next with ⟨same, met⟩ | ⟨p, fields, diskOk, running, log, meets⟩
  · refine ⟨[], by rw [same, List.append_nil], ?_⟩
    constructor
    · intro _
      exact met
    · intro _ c member
      cases member
  · obtain ⟨new, appended, right⟩ := save_log fields diskOk kept running
    exact ⟨new, log.trans appended, right.trans meets.symm⟩

/-- No event takes a checkpoint back. -/
theorem step_checkpoints {e : Event py} (next : step w e = some w') {c : Checkpoint}
    (member : c ∈ w.checkpoints) : c ∈ w'.checkpoints := by
  rcases step_cases next with ⟨same, _⟩ | ⟨p, fields, diskOk, _, log, _⟩
  · rwa [same]
  · rw [log]
    by_cases written : Saves p fields diskOk
    · obtain ⟨text, _, after⟩ := save_written (w := w) written
      rw [after]
      exact List.mem_append_left _ member
    · rwa [save_unwritten written]

theorem run_checkpoints {es : List (Event py)} (reached : Machine.run step w es = some w')
    {c : Checkpoint} (member : c ∈ w.checkpoints) : c ∈ w'.checkpoints :=
  Machine.run_invariant (fun w => c ∈ w.checkpoints)
    (fun _ _ _ here next => step_checkpoints next here) member reached

/-- From a world whose checkpoints were right so far. -/
theorem run_right_iff (kept : Kept py w) (right : ∀ c ∈ w.checkpoints, c.right)
    {es : List (Event py)} (reached : Machine.run step w es = some w') :
    (∀ c ∈ w'.checkpoints, c.right) ↔ Machine.Along step Meets w es := by
  induction es generalizing w with
  | nil =>
    cases reached
    exact ⟨fun _ => trivial, fun _ => right⟩
  | cons e es ih =>
    obtain ⟨middle, next, reached⟩ := Machine.run_cons_eq_some.mp reached
    obtain ⟨new, log, newRight⟩ := step_log kept e next
    rw [Machine.along_cons next]
    by_cases met : Meets w e
    · have middleRight : ∀ c ∈ middle.checkpoints, c.right := by
        intro c member
        rw [log] at member
        rcases List.mem_append.mp member with old | fresh
        · exact right c old
        · exact newRight.mpr met c fresh
      rw [ih (step_kept kept e met next) middleRight reached]
      exact (and_iff_right met).symm
    · -- the wrong checkpoint stays in the log
      constructor
      · intro all
        exfalso
        apply met
        apply newRight.mp
        intro c fresh
        have inMiddle : c ∈ middle.checkpoints := by
          rw [log]
          exact List.mem_append_right _ fresh
        exact all c (run_checkpoints reached inMiddle)
      · intro along
        exact absurd along.1 met

end

/-- In every run, the checkpoints so far are right exactly if each one was written under the
    condition. -/
theorem counts_right_iff (py : Interpreter) (es : List (Event py)) (w : World)
    (reached : Machine.run step World.first es = some w) :
    (∀ c ∈ w.checkpoints, c.right) ↔ Machine.Along step Meets World.first es :=
  run_right_iff (first_kept py) (fun c member => by cases member) reached

/-! A peer that accepts every policy. -/

def sampleCall : EmitCall where
  a1 := { put := fun _ => .accepted 201 }
  store := {}
  policyType := "horizon.qos.priority"
  payload := []
  policyId := "policy-1"
  record := sampleRecord (.fin 0) "dec-1" none
  certificate := sampleCertificate 1

def sampleFields : RuntimeFields plainInterpreter where
  rappState := "running"
  degradation := []
  readable := ⟨List.nodup_nil, trivial⟩

theorem sample_saves {p : Process} (unset : p.snapshot.Unset)
    (short : intDigitsOk p.snapshot.writtenCount = true) : Saves p sampleFields true := by
  have readable := stateSnapshot_readable (c := p.snapshot) unset sampleFields short
  exact ⟨rfl, _, dumps_readable plainInterpreter compact readable⟩

theorem counts_right_sample : ∃ w : World,
    Machine.run step World.first
        [.start, .emit sampleCall, .checkpoint sampleFields true] = some w ∧
      ∀ c ∈ w.checkpoints, c.right := by
  refine ⟨_, rfl, (counts_right_iff plainInterpreter
    [.start, .emit sampleCall, .checkpoint sampleFields true] _ rfl).mpr ?_⟩
  refine ⟨trivial, fun w next => ?_⟩
  cases next
  refine ⟨trivial, fun w next => ?_⟩
  cases next
  refine ⟨?_, fun _ _ => trivial⟩
  intro p running _
  cases running
  exact ⟨rfl, Or.inl rfl⟩

def sampleProcess (restored : Int) (l : Ledger) (draining : Bool) (unsaved : ℕ) : Process :=
  ⟨⟨restored, .null, .null, 0⟩, l, draining, unsaved⟩

/-- The final checkpoint of a process, and what a restart restores from it. -/
theorem sample_final (w : World) (restored : Int) (l : Ledger) (unsaved : ℕ) (written : Int)
    (running : w.process = some (sampleProcess restored l false unsaved))
    (count : (sampleProcess restored l false unsaved).snapshot.writtenCount = written)
    (short : intDigitsOk written = true) :
    ∃ text, step w (.finalCheckpoint sampleFields true) = some { w with
        disk := .text text
        process := some (sampleProcess restored l true unsaved)
        covered := w.accepted
        checkpoints := w.checkpoints ++ [⟨written, w.accepted⟩] } ∧
      restoreFromDisk plainInterpreter (.text text) = .ok ⟨written, .null, .null, 0⟩ := by
  have unset : (sampleProcess restored l false unsaved).snapshot.Unset := ⟨rfl, rfl⟩
  rw [← count] at short
  obtain ⟨text, saved, after⟩ := save_written (w := w) (sample_saves unset short)
  have back := restore_saved unset sampleFields saved
  rw [count] at after back
  refine ⟨text, ?_, back⟩
  rw [step, running]
  dsimp only
  rw [after]
  rfl

theorem sample_start {w : World} {restored : Int} (idle : w.process = none)
    (loaded : restoreFromDisk plainInterpreter w.disk = .ok ⟨restored, .null, .null, 0⟩) :
    step w (.start : Event plainInterpreter) = some { w with
      process := some (sampleProcess restored {} false (w.accepted - w.covered)) } := by
  rw [step, idle, loaded]
  rfl

theorem zero_one_short : intDigitsOk 0 = true ∧ intDigitsOk 1 = true :=
  ⟨intDigitsOk_of_small (by decide), intDigitsOk_of_small (by decide)⟩

/-- One policy, a restart, another policy: the checkpoint still writes 1. And a policy that
    is accepted in the drain of an orderly shutdown is never written. -/
theorem restart_loses_counts :
    (∃ w : World, Machine.run step World.first [.start, .emit sampleCall,
        .finalCheckpoint sampleFields true, .stopped, .start, .emit sampleCall,
        .finalCheckpoint sampleFields true] = some w ∧ ⟨1, 2⟩ ∈ w.checkpoints) ∧
    ∃ w : World, Machine.run step World.first [.start, .finalCheckpoint sampleFields true,
        .emit sampleCall, .stopped, .start, .finalCheckpoint sampleFields true] = some w ∧
      ⟨0, 1⟩ ∈ w.checkpoints := by
  have fresh : step World.first (.start : Event plainInterpreter) =
      some ⟨.missing, some (sampleProcess 0 {} false 0), 0, 0, []⟩ := rfl
  constructor
  · have first : step ⟨.missing, some (sampleProcess 0 {} false 0), 0, 0, []⟩
        (.emit sampleCall : Event plainInterpreter) =
          some ⟨.missing, some (sampleProcess 0 (sampleCall.emit {}) false 0), 1, 0, []⟩ := rfl
    obtain ⟨text, final, restored⟩ := sample_final
      ⟨.missing, some (sampleProcess 0 (sampleCall.emit {}) false 0), 1, 0, []⟩ 0
      (sampleCall.emit {}) 0 1 rfl rfl zero_one_short.2
    have stopped : step
        ⟨.text text, some (sampleProcess 0 (sampleCall.emit {}) true 0), 1, 1, [⟨1, 1⟩]⟩
        (.stopped : Event plainInterpreter) =
          some ⟨.text text, none, 1, 1, [⟨1, 1⟩]⟩ := rfl
    have again := sample_start (w := ⟨.text text, none, 1, 1, [⟨1, 1⟩]⟩) rfl restored
    have second : step ⟨.text text, some (sampleProcess 1 {} false 0), 1, 1, [⟨1, 1⟩]⟩
        (.emit sampleCall : Event plainInterpreter) = some
          ⟨.text text, some (sampleProcess 1 (sampleCall.emit {}) false 0), 2, 1, [⟨1, 1⟩]⟩ :=
      rfl
    obtain ⟨text', final', _⟩ := sample_final
      ⟨.text text, some (sampleProcess 1 (sampleCall.emit {}) false 0), 2, 1, [⟨1, 1⟩]⟩ 1
      (sampleCall.emit {}) 0 1 rfl rfl zero_one_short.2
    refine ⟨⟨.text text', some (sampleProcess 1 (sampleCall.emit {}) true 0), 2, 2,
      [⟨1, 1⟩, ⟨1, 2⟩]⟩, ?_, List.mem_cons_of_mem _ List.mem_cons_self⟩
    rw [Machine.run_cons fresh, Machine.run_cons first]
    apply (Machine.run_cons final _).trans
    apply (Machine.run_cons stopped _).trans
    apply (Machine.run_cons again _).trans
    apply (Machine.run_cons second _).trans
    exact Machine.run_cons final' []
  · obtain ⟨text, final, restored⟩ := sample_final
      ⟨.missing, some (sampleProcess 0 {} false 0), 0, 0, []⟩ 0 {} 0 0 rfl rfl zero_one_short.1
    have drained : step ⟨.text text, some (sampleProcess 0 {} true 0), 0, 0, [⟨0, 0⟩]⟩
        (.emit sampleCall : Event plainInterpreter) = some
          ⟨.text text, some (sampleProcess 0 (sampleCall.emit {}) true 0), 1, 0, [⟨0, 0⟩]⟩ :=
      rfl
    have stopped : step
        ⟨.text text, some (sampleProcess 0 (sampleCall.emit {}) true 0), 1, 0, [⟨0, 0⟩]⟩
        (.stopped : Event plainInterpreter) =
          some ⟨.text text, none, 1, 0, [⟨0, 0⟩]⟩ := rfl
    have again := sample_start (w := ⟨.text text, none, 1, 0, [⟨0, 0⟩]⟩) rfl restored
    obtain ⟨text', final', _⟩ := sample_final
      ⟨.text text, some (sampleProcess 0 {} false 1), 1, 0, [⟨0, 0⟩]⟩ 0 {} 1 0 rfl rfl
      zero_one_short.1
    refine ⟨⟨.text text', some (sampleProcess 0 {} true 1), 1, 1, [⟨0, 0⟩, ⟨0, 1⟩]⟩, ?_,
      List.mem_cons_of_mem _ List.mem_cons_self⟩
    rw [Machine.run_cons fresh]
    apply (Machine.run_cons final _).trans
    apply (Machine.run_cons drained _).trans
    apply (Machine.run_cons stopped _).trans
    apply (Machine.run_cons again _).trans
    exact Machine.run_cons final' []

end HorizonRic.EmittedCount
