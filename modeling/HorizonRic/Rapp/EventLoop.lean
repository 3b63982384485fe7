import HorizonRic.Rapp.StateCheckpoint
import HorizonRic.Rapp.Pipeline
import HorizonRic.Python.AsyncGenerator
import HorizonRic.Library.Machine

/-!
The event loop of `_daemon_main` in `rapp/daemon.py`: the race of the next event
against the stop signal, `process_event` with its result or its exception, the
timed checkpoint, and the last one when the loop is left. The log says which
events were handed to the pipeline and when the checkpoint was written.
-/
namespace HorizonRic.Rapp

open Py Io

structure DaemonConfig where
  stateIntervalS : Number := .fin 30
  once : Bool := false
  onceMaxEvents : Int := 10

/-- A telemetry stream: its generator's body, and what that adds to `counters["malformed"]`
    when it is resumed. -/
structure Source (σ : Type) where
  body : σ → Option (Resumed σ TelemetryEvent)
  skipped : σ → Nat := fun _ => 0

def Source.counted (source : Source σ) : AsyncGenerator σ → Nat
  | .suspended s => source.skipped s
  | .finished => 0

inductive Phase where
  /-- At the head of `while not stop.is_set()`. -/
  | looping
  /-- `__anext__` races the stop signal. -/
  | racing
  /-- Inside `process_event`. -/
  | deciding (event : TelemetryEvent)
  /-- After a result: the timed checkpoint and the once-limit. -/
  | timing
  /-- In the `finally`, before the last checkpoint. -/
  | leaving
  | ended

inductive Entry where
  | handed (event : TelemetryEvent)
  | returned (event : TelemetryEvent)
  | raised (event : TelemetryEvent)
  | saved

/-- A running daemon with its state file; `malformed` is `counters["malformed"]`. -/
structure Daemon (σ : Type) where
  stream : AsyncGenerator σ
  checkpoint : StateCheckpoint
  stateFile : StateFile
  lastCheckpointAt : ℚ
  stop : Bool := false
  phase : Phase := .looping
  malformed : Nat := 0
  nEvents : Int := 0
  nAccepted : Nat := 0
  nBlocked : Nat := 0
  nFailed : Nat := 0
  nErrors : Nat := 0
  nDryRun : Nat := 0
  nEnforced : Nat := 0
  policyIds : List String := []
  log : List Entry := []

/-- What the loop meets, one await at a time. -/
inductive Input where
  | signal
  | head
  | anext
  | stopped
  | result (r : PipelineResult)
  | raises
  | clock (now : ℚ) (utc : String)
  | finish (utc : String)

namespace Daemon
variable {σ : Type}

/-- The counters after a result. -/
def tally (d : Daemon σ) (r : PipelineResult) : Daemon σ :=
  if r.blocked then { d with nBlocked := d.nBlocked + 1 }
  else if r.dryRun then { d with nDryRun := d.nDryRun + 1 }
  else if r.emitFailed then { d with nFailed := d.nFailed + 1 }
  else
    { d with
      nAccepted := d.nAccepted + 1
      checkpoint :=
        { d.checkpoint with decisionsEmitted := d.checkpoint.decisionsEmitted + 1 }
      policyIds :=
        match r.policyId with
        | some id => if id = "" then d.policyIds else d.policyIds ++ [id]
        | none => d.policyIds
      nEnforced := if r.enforced = some true then d.nEnforced + 1 else d.nEnforced }

/-- `checkpoint.last_event_id = event.event_id` and `events_processed += 1`. -/
def advance (d : Daemon σ) (event : TelemetryEvent) : Daemon σ :=
  { d with
    checkpoint :=
      { d.checkpoint with
        lastEventId := .str event.eventId
        eventsProcessed := d.checkpoint.eventsProcessed + 1 } }

/-- `checkpoint.save(chk_path)`, where the write succeeds. -/
def saveState (py : Interpreter) (utc : String) (d : Daemon σ) : Option (Daemon σ) :=
  match d.checkpoint.save py utc with
  | .ok (checkpoint, text) =>
    some { d with checkpoint, stateFile := .text text, log := d.log ++ [.saved] }
  | .error _ => none

/-- How the race ends when `__anext__` wins it. -/
def takeNext (d : Daemon σ) : Anext TelemetryEvent → Daemon σ
  | .event e =>
    { d with phase := .deciding e, nEvents := d.nEvents + 1, log := d.log ++ [.handed e] }
  | .stopAsyncIteration => { d with phase := .leaving }
  | .raised _ => { d with phase := .looping, malformed := d.malformed + 1 }

/-- `if cfg.once and n_events >= cfg.once_max_events: break`. -/
def afterEvent (cfg : DaemonConfig) (d : Daemon σ) : Daemon σ :=
  { d with phase := if cfg.once ∧ cfg.onceMaxEvents ≤ d.nEvents then .leaving else .looping }

/-- One step of the loop; none where it cannot be taken. -/
def step (py : Interpreter) (source : Source σ) (cfg : DaemonConfig) (d : Daemon σ) :
    Input → Option (Daemon σ)
  | .signal => some { d with stop := true }
  | .head =>
    match d.phase with
    | .looping => some { d with phase := if d.stop then .leaving else .racing }
    | _ => none
  | .anext =>
    match d.phase, d.stream.anext source.body with
    | .racing, some (outcome, stream) =>
      some (({ d with
        stream, malformed := d.malformed + source.counted d.stream } : Daemon σ).takeNext outcome)
    | _, _ => none
  | .stopped =>
    match d.phase with
    | .racing => if d.stop then some { d with phase := .leaving } else none
    | _ => none
  | .result r =>
    match d.phase with
    | .deciding e =>
      some { (d.tally r).advance e with phase := .timing, log := d.log ++ [.returned e] }
    | _ => none
  | .raises =>
    match d.phase with
    | .deciding e =>
      some { d with phase := .looping, nErrors := d.nErrors + 1, log := d.log ++ [.raised e] }
    | _ => none
  | .clock now utc =>
    match d.phase with
    | .timing =>
      if Number.lt cfg.stateIntervalS (.fin (now - d.lastCheckpointAt)) then
        (d.saveState py utc).map fun d => { d with lastCheckpointAt := now }.afterEvent cfg
      else some (d.afterEvent cfg)
    | _ => none
  | .finish utc =>
    match d.phase with
    | .leaving => (d.saveState py utc).map fun d => { d with phase := .ended }
    | _ => none

/-- The daemon when its loop starts. -/
def boot (stream : AsyncGenerator σ) (checkpoint : StateCheckpoint) (stateFile : StateFile)
    (now : ℚ) : Daemon σ :=
  { stream, checkpoint, stateFile, lastCheckpointAt := now }

end Daemon

/-- The events handed to `process_event`, in order. -/
def handedEvents (log : List Entry) : List TelemetryEvent :=
  log.filterMap fun
    | .handed e => some e
    | _ => none

@[simp] theorem handedEvents_append (log more : List Entry) :
    handedEvents (log ++ more) = handedEvents log ++ handedEvents more :=
  List.filterMap_append

@[simp] theorem handedEvents_handed (e : TelemetryEvent) : handedEvents [.handed e] = [e] := rfl

@[simp] theorem handedEvents_returned (e : TelemetryEvent) :
    handedEvents [.returned e] = [] := rfl

@[simp] theorem handedEvents_raised (e : TelemetryEvent) : handedEvents [.raised e] = [] := rfl

@[simp] theorem handedEvents_saved : handedEvents [.saved] = [] := rfl

/-! What each step does. -/

namespace Daemon
variable {σ : Type} {py : Interpreter} {source : Source σ} {cfg : DaemonConfig} {d d' : Daemon σ}

theorem tally_frame (d : Daemon σ) (r : PipelineResult) :
    (d.tally r).stream = d.stream ∧ (d.tally r).malformed = d.malformed ∧
      (d.tally r).stop = d.stop ∧ (d.tally r).stateFile = d.stateFile := by
  unfold tally
  split
  · exact ⟨rfl, rfl, rfl, rfl⟩
  · split
    · exact ⟨rfl, rfl, rfl, rfl⟩
    · split <;> exact ⟨rfl, rfl, rfl, rfl⟩

theorem step_head (h : d.step py source cfg .head = some d') :
    d.phase = .looping ∧ d' = { d with phase := if d.stop then .leaving else .racing } := by
  rw [step] at h
  split at h
  · rename_i phase
    cases h
    exact ⟨phase, rfl⟩
  · cases h

theorem step_anext (h : d.step py source cfg .anext = some d') :
    d.phase = .racing ∧ ∃ outcome stream, d.stream.anext source.body = some (outcome, stream) ∧
      d' = ({ d with
        stream, malformed := d.malformed + source.counted d.stream } : Daemon σ).takeNext outcome := by
  rw [step] at h
  split at h
  · rename_i outcome stream phase next
    cases h
    exact ⟨phase, outcome, stream, next, rfl⟩
  · cases h

theorem step_stopped (h : d.step py source cfg .stopped = some d') :
    d.stop = true ∧ d' = { d with phase := .leaving } := by
  rw [step] at h
  split at h
  · split at h
    · rename_i stop
      cases h
      exact ⟨stop, rfl⟩
    · cases h
  · cases h

theorem step_result {r : PipelineResult} (h : d.step py source cfg (.result r) = some d') :
    ∃ e, d.phase = .deciding e ∧
      d' = { (d.tally r).advance e with phase := .timing, log := d.log ++ [.returned e] } := by
  rw [step] at h
  split at h
  · rename_i e phase
    cases h
    exact ⟨e, phase, rfl⟩
  · cases h

theorem step_raises (h : d.step py source cfg .raises = some d') :
    ∃ e, d.phase = .deciding e ∧
      d' = { d with phase := .looping, nErrors := d.nErrors + 1, log := d.log ++ [.raised e] } := by
  rw [step] at h
  split at h
  · rename_i e phase
    cases h
    exact ⟨e, phase, rfl⟩
  · cases h

theorem step_clock {now : ℚ} {utc : String} (h : d.step py source cfg (.clock now utc) = some d') :
    d.phase = .timing ∧
      (d' = d.afterEvent cfg ∨ ∃ saved, d.saveState py utc = some saved ∧
        d' = { saved with lastCheckpointAt := now }.afterEvent cfg) := by
  rw [step] at h
  split at h
  · rename_i phase
    refine ⟨phase, ?_⟩
    split at h
    · right
      obtain ⟨saved, written, same⟩ := Option.map_eq_some_iff.mp h
      exact ⟨saved, written, same.symm⟩
    · left
      cases h
      rfl
  · cases h

theorem step_finish {utc : String} (h : d.step py source cfg (.finish utc) = some d') :
    d.phase = .leaving ∧ ∃ saved, d.saveState py utc = some saved ∧
      d' = { saved with phase := .ended } := by
  rw [step] at h
  split at h
  · rename_i phase
    obtain ⟨saved, written, same⟩ := Option.map_eq_some_iff.mp h
    exact ⟨phase, saved, written, same.symm⟩
  · cases h

theorem saveState_some {utc : String} (h : d.saveState py utc = some d') :
    ∃ checkpoint text, d.checkpoint.save py utc = .ok (checkpoint, text) ∧
      d' = { d with checkpoint, stateFile := .text text, log := d.log ++ [.saved] } := by
  rw [saveState] at h
  split at h
  · rename_i checkpoint text written
    cases h
    exact ⟨checkpoint, text, written, rfl⟩
  · cases h

end Daemon
end HorizonRic.Rapp
