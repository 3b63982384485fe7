import HorizonRic.Observability.X733Alarms
import HorizonRic.Python.Json

/-!
The controller of the degraded modes. A call changes the controller under its
lock; the alarm of a transition is emitted after the lock is released, so any
number of transitions can have their alarm still to come.
-/
namespace HorizonRic.Degradation
open Py Json X733

inductive DegradedState where
  | normal
  | keepLastGood
  | bufferToTmp
  | holdOutput
  deriving DecidableEq, Repr

def DegradedState.value : DegradedState → String
  | .normal => "normal"
  | .keepLastGood => "keep_last_good"
  | .bufferToTmp => "buffer_to_tmp"
  | .holdOutput => "hold_output"

inductive FailureMode where
  | smoUnreachable
  | evidenceStoreDown
  | telemetryDropped
  deriving DecidableEq, Repr

def FailureMode.value : FailureMode → String
  | .smoUnreachable => "smo_unreachable"
  | .evidenceStoreDown => "evidence_store_down"
  | .telemetryDropped => "telemetry_dropped"

def failureToState : FailureMode → DegradedState
  | .smoUnreachable => .keepLastGood
  | .evidenceStoreDown => .bufferToTmp
  | .telemetryDropped => .holdOutput

/-- The state of a failure, or of none. -/
def stateOf : Option FailureMode → DegradedState
  | none => .normal
  | some mode => failureToState mode

structure LastGoodPolicy where
  policyId : String
  payload : Dict Value
  ts : Number

/-- The state is that of the failure mode, and only a degraded one has a time. -/
structure DegradationController where
  state : DegradedState
  failureMode : Option FailureMode
  enteredAt : Option Number
  lastGoodPolicies : Dict LastGoodPolicy
  heldDecisions : List Value
  bufferedEvidence : List Value
  /-- The text of the buffer file. -/
  tmpBuffer : List Char
  coherent : state = stateOf failureMode
  timed : enteredAt.isSome = failureMode.isSome

/-- What a transition still has to announce when it leaves the lock. -/
inductive Announcement where
  | entered (fromState : DegradedState) (mode : FailureMode) (reason : String)
  | recovered (fromState : DegradedState) (mode : Option FailureMode) (reason : String)
  deriving DecidableEq

namespace Announcement

def eventName : Announcement → String
  | .entered .. => "horizon.degraded.entered"
  | .recovered .. => "horizon.degraded.recovered"

def information : Announcement → Dict Value
  | .entered fromState mode reason =>
    [("from_state", .str fromState.value), ("to_state", .str (failureToState mode).value),
      ("failure_mode", .str mode.value), ("reason", .str reason)]
  | .recovered fromState mode reason =>
    [("from_state", .str fromState.value),
      ("failure_mode", (mode.map fun m => Value.str m.value).getD .null), ("reason", .str reason)]

/-- The failure after the transition. -/
def target : Announcement → Option FailureMode
  | .entered _ mode _ => some mode
  | .recovered .. => none

end Announcement

namespace DegradationController

def init (tmpBuffer : List Char) : DegradationController :=
  ⟨.normal, none, none, [], [], [], tmpBuffer, rfl, rfl⟩

def isServing (c : DegradationController) : Bool := c.state = .normal

/-- The same failure again changes nothing and announces nothing. -/
def enter (c : DegradationController) (mode : FailureMode) (reason : String) (now : Number) :
    DegradationController × Option Announcement :=
  let new := failureToState mode
  if c.state = new ∧ c.failureMode = some mode then (c, none)
  else
    ({ c with
        state := new, failureMode := some mode, enteredAt := some now, coherent := rfl
        timed := rfl }, some (.entered c.state mode reason))

def recover (c : DegradationController) (reason : String) :
    DegradationController × Option Announcement :=
  if c.state = .normal then (c, none)
  else
    ({ c with
        state := .normal, failureMode := none, enteredAt := none, coherent := rfl, timed := rfl },
      some (.recovered c.state c.failureMode reason))

def recordLastGoodPolicy (c : DegradationController) (policyType policyId : String)
    (payload : Dict Value) (now : Number) : DegradationController :=
  { c with lastGoodPolicies := Dict.set policyType ⟨policyId, payload, now⟩ c.lastGoodPolicies }

def getLastGoodPolicy (c : DegradationController) (policyType : String) : Option LastGoodPolicy :=
  Dict.get? policyType c.lastGoodPolicies

/-- The line of a record; a record that `json.dumps` refuses has none. -/
def bufferLine (py : Interpreter) (record : Value) : List Char :=
  match dumps py spaced record with
  | .ok text => text.toList ++ ['\n']
  | .error _ => []

/-- The record is in the list before its line is in the file. A file that takes only some of the
    characters raises, as `json.dumps` may do. -/
def bufferEvidence (py : Interpreter) (c : DegradationController) (record : Value)
    (fails : Option ℕ) : DegradationController :=
  let line := bufferLine py record
  { c with
    bufferedEvidence := c.bufferedEvidence ++ [record]
    tmpBuffer := c.tmpBuffer ++ (match fails with
      | none => line
      | some taken => line.take taken) }

def holdDecision (c : DegradationController) (decision : Value) : DegradationController :=
  { c with heldDecisions := c.heldDecisions ++ [decision] }

def drainBufferedEvidence (c : DegradationController) : DegradationController × List Value :=
  ({ c with bufferedEvidence := [] }, c.bufferedEvidence)

def drainHeldDecisions (c : DegradationController) : DegradationController × List Value :=
  ({ c with heldDecisions := [] }, c.heldDecisions)

theorem serving_iff (c : DegradationController) : c.isServing = true ↔ c.failureMode = none := by
  rw [isServing, decide_eq_true_eq, c.coherent]
  cases c.failureMode with
  | none => simp [stateOf]
  | some mode => cases mode <;> simp [stateOf, failureToState]

theorem enter_cases (c : DegradationController) (mode : FailureMode) (reason : String)
    (now : Number) :
    (c.failureMode = some mode ∧ c.enter mode reason now = (c, none)) ∨
    (c.failureMode ≠ some mode ∧ (c.enter mode reason now).1.failureMode = some mode ∧
      (c.enter mode reason now).2 = some (.entered c.state mode reason)) := by
  by_cases same : c.failureMode = some mode
  · have state : c.state = failureToState mode := by rw [c.coherent, same, stateOf]
    exact Or.inl ⟨same, if_pos ⟨state, same⟩⟩
  · have moves : ¬(c.state = failureToState mode ∧ c.failureMode = some mode) :=
      fun both => same both.2
    refine Or.inr ⟨same, ?_, ?_⟩
    · rw [enter, if_neg moves]
    · rw [enter, if_neg moves]

theorem recover_cases (c : DegradationController) (reason : String) :
    (c.failureMode = none ∧ c.recover reason = (c, none)) ∨
    (c.failureMode ≠ none ∧ (c.recover reason).1.failureMode = none ∧
      (c.recover reason).2 = some (.recovered c.state c.failureMode reason)) := by
  have normal := c.serving_iff
  rw [isServing, decide_eq_true_eq] at normal
  by_cases serving : c.state = .normal
  · exact Or.inl ⟨normal.mp serving, if_pos serving⟩
  · refine Or.inr ⟨fun none_ => serving (normal.mpr none_), ?_, ?_⟩
    · rw [recover, if_neg serving]
    · rw [recover, if_neg serving]

end DegradationController

/-! Calls of any number of threads. -/

inductive Call where
  | enter (mode : FailureMode) (reason : String) (now : Number)
  | recover (reason : String)
  | recordLastGoodPolicy (policyType policyId : String) (payload : Dict Value) (now : Number)
  | bufferEvidence (record : Value) (fails : Option ℕ)
  | holdDecision (decision : Value)
  | drainBufferedEvidence
  | drainHeldDecisions

def degradedEvents : List String := ["horizon.degraded.entered", "horizon.degraded.recovered"]

/-- A call's block under the lock, the emission of one of the announcements still to come, or an
    alarm of another part of the process. -/
inductive Event where
  | call (c : Call)
  | emit (k : ℕ)
  | other (eventName : String) (additionalInformation : Dict Value)
      (severityOverride : Option X733Severity) (foreign : eventName ∉ degradedEvents)

/-- The controller and the bus; the announcements still to come, those made by transitions and
    those emitted, each in order; and what callers have drained. -/
structure System where
  controller : DegradationController
  bus : X733AlarmBus
  inFlight : List Announcement
  transitions : List Announcement
  emitted : List Announcement
  drainedEvidence : List Value
  drainedDecisions : List Value

namespace System

def start (tmpBuffer : List Char) : System := ⟨.init tmpBuffer, .init, [], [], [], [], []⟩

def announce (s : System) (result : DegradationController × Option Announcement) : System :=
  { s with
    controller := result.1
    inFlight := s.inFlight ++ result.2.toList
    transitions := s.transitions ++ result.2.toList }

def call (py : Interpreter) (s : System) : Call → System
  | .enter mode reason now => s.announce (s.controller.enter mode reason now)
  | .recover reason => s.announce (s.controller.recover reason)
  | .recordLastGoodPolicy policyType policyId payload now =>
    { s with controller := s.controller.recordLastGoodPolicy policyType policyId payload now }
  | .bufferEvidence record fails =>
    { s with controller := s.controller.bufferEvidence py record fails }
  | .holdDecision decision => { s with controller := s.controller.holdDecision decision }
  | .drainBufferedEvidence =>
    { s with
      controller := s.controller.drainBufferedEvidence.1
      drainedEvidence := s.drainedEvidence ++ s.controller.drainBufferedEvidence.2 }
  | .drainHeldDecisions =>
    { s with
      controller := s.controller.drainHeldDecisions.1
      drainedDecisions := s.drainedDecisions ++ s.controller.drainHeldDecisions.2 }

/-- The alarms of announcements are emitted in any order. -/
def step (py : Interpreter) (s : System) : Event → Option System
  | .call c => some (s.call py c)
  | .emit k =>
    match s.inFlight[k]? with
    | none => none
    | some a =>
      some { s with
        bus := ((s.bus.emitEvent a.eventName a.information none).toOption).getD s.bus
        inFlight := s.inFlight.eraseIdx k
        emitted := s.emitted ++ [a] }
  | .other eventName additionalInformation severityOverride _ =>
    some { s with
      bus := ((s.bus.emitEvent eventName additionalInformation severityOverride).toOption).getD
        s.bus }

end System
end HorizonRic.Degradation
