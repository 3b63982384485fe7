import HorizonRic.Python.Mapping
import HorizonRic.Python.Value
import HorizonRic.Runtime.CircuitBreaker

/-!
X.733 alarms: the table from internal events to alarms, the bus with its
registry of active alarms, and the breakers' listener that emits on it.
-/
namespace HorizonRic.X733
open Py CircuitBreaker

inductive X733AlarmType where
  | communications
  | qos
  | processingError
  | equipment
  | environmental
  deriving DecidableEq, Repr

def X733AlarmType.value : X733AlarmType → String
  | .communications => "communicationsAlarm"
  | .qos => "qualityOfServiceAlarm"
  | .processingError => "processingErrorAlarm"
  | .equipment => "equipmentAlarm"
  | .environmental => "environmentalAlarm"

inductive X733Severity where
  | cleared
  | indeterminate
  | critical
  | major
  | minor
  | warning
  deriving DecidableEq, Repr

structure X733Alarm where
  managedObjectInstance : String := "rApp/horizon_ric"
  alarmType : X733AlarmType
  probableCause : String
  perceivedSeverity : X733Severity
  specificProblem : String
  additionalText : String := ""
  additionalInformation : Dict Value := []

def X733Alarm.isClearing (alarm : X733Alarm) : Bool := alarm.perceivedSeverity = .cleared

structure FailureSpec where
  alarmType : X733AlarmType
  probableCause : String
  perceivedSeverity : X733Severity
  specificProblem : String
  deriving DecidableEq, Repr

def failureMap : Dict FailureSpec := [
  ("horizon.cb.opened",
    ⟨.processingError, "internalServiceFailure", .major, "Circuit breaker opened on dependency call"⟩),
  ("horizon.cb.half_open",
    ⟨.processingError, "internalServiceFailure", .warning,
      "Circuit breaker entered HALF_OPEN probe state"⟩),
  ("horizon.cb.closed",
    ⟨.processingError, "internalServiceFailure", .cleared, "Circuit breaker recovered to CLOSED"⟩),
  ("horizon.degraded.entered",
    ⟨.qos, "qosAlarm", .major, "rApp entered graceful-degradation mode"⟩),
  ("horizon.degraded.recovered",
    ⟨.qos, "qosAlarm", .cleared, "rApp recovered from graceful-degradation mode"⟩),
  ("horizon.evidence.tamper_detected",
    ⟨.processingError, "softwareError", .critical, "Audit chain SHA-256 verification failed"⟩),
  ("horizon.evidence.append_failed",
    ⟨.processingError, "storageError", .major, "Append to evidence store failed"⟩),
  ("horizon.watchdog.failed",
    ⟨.equipment, "equipmentFailure", .critical, "Liveness watchdog timeout"⟩),
  ("horizon.sla.breach", ⟨.qos, "thresholdCrossed", .major, "SLA breach predicted"⟩),
  ("horizon.auth.denied",
    ⟨.processingError, "authenticationFailure", .minor,
      "Authentication denied at security middleware"⟩),
  ("horizon.a1.emit_refused",
    ⟨.communications, "callEstablishmentError", .major, "A1 policy emit refused by guard chain"⟩)]

/-- An event without an entry in the table raises. -/
def mapEventToAlarm (eventName : String) (additionalInformation : Dict Value)
    (severityOverride : Option X733Severity) : Except PyErr X733Alarm :=
  match Dict.get? eventName failureMap with
  | none => .error .keyError
  | some spec =>
    .ok { alarmType := spec.alarmType, probableCause := spec.probableCause
          perceivedSeverity := severityOverride.getD spec.perceivedSeverity
          specificProblem := spec.specificProblem, additionalText := eventName
          additionalInformation := additionalInformation }

/-- Instance, alarm type and cause. -/
abbrev AlarmKey := String × String × String

structure X733AlarmBus where
  active : Mapping AlarmKey X733Alarm
  history : List X733Alarm

namespace X733AlarmBus

def init : X733AlarmBus := ⟨.empty, []⟩

def key (alarm : X733Alarm) : AlarmKey :=
  (alarm.managedObjectInstance, alarm.alarmType.value, alarm.probableCause)

def emit (bus : X733AlarmBus) (alarm : X733Alarm) : X733AlarmBus where
  active := if alarm.isClearing then bus.active.pop (key alarm) else bus.active.set (key alarm) alarm
  history := bus.history ++ [alarm]

def emitEvent (bus : X733AlarmBus) (eventName : String) (additionalInformation : Dict Value)
    (severityOverride : Option X733Severity) : Except PyErr X733AlarmBus :=
  match mapEventToAlarm eventName additionalInformation severityOverride with
  | .error e => .error e
  | .ok alarm => .ok (bus.emit alarm)

def activeAlarms (bus : X733AlarmBus) : List X733Alarm := bus.active.values

end X733AlarmBus

/-- An event of another kind than the given ones, none of which shares their key, adds no alarm of
    theirs and changes nothing at the key. -/
theorem emitEvent_elsewhere {events : List String} {place : AlarmKey}
    (apart : ∀ item ∈ failureMap, item.1 ∉ events →
      ("rApp/horizon_ric", item.2.alarmType.value, item.2.probableCause) ≠ place)
    (bus : X733AlarmBus) {eventName : String} (information : Dict Value)
    (severity : Option X733Severity) (foreign : eventName ∉ events) :
    let bus' := ((bus.emitEvent eventName information severity).toOption).getD bus
    (∀ k alarm, (k, alarm) ∈ bus'.active.items →
      alarm.additionalText ∈ events ∨ k = place → (k, alarm) ∈ bus.active.items) ∧
    ∀ alarm, (place, alarm) ∈ bus.active.items → (place, alarm) ∈ bus'.active.items := by
  unfold X733AlarmBus.emitEvent mapEventToAlarm
  cases found : Dict.get? eventName failureMap with
  | none => exact ⟨fun _ _ member _ => member, fun _ member => member⟩
  | some spec =>
    have elsewhere : ("rApp/horizon_ric", spec.alarmType.value, spec.probableCause) ≠ place :=
      apart (eventName, spec) (Dict.mem_of_get? found) foreign
    simp only [Except.toOption, Option.getD_some, X733AlarmBus.emit, X733AlarmBus.key]
    split
    · constructor
      · intro k alarm member _
        exact (Mapping.mem_pop.mp member).2
      · intro alarm member
        exact Mapping.mem_pop.mpr ⟨elsewhere.symm, member⟩
    · constructor
      · intro k alarm member here
        rcases Mapping.mem_set.mp member with ⟨same, rfl⟩ | ⟨_, old⟩
        · rcases here with text | atKey
          · exact absurd text foreign
          · exact absurd (same.symm.trans atKey) elsewhere
        · exact old
      · intro alarm member
        exact Mapping.mem_set.mpr (Or.inr ⟨elsewhere.symm, member⟩)

/-! The breakers' listener. -/

/-- The library's name of a state. -/
def stateName : CircuitState → String
  | .closed => "closed"
  | .open => "open"
  | .halfOpen => "half-open"

def breakerEvent : CircuitState → String
  | .closed => "horizon.cb.closed"
  | .open => "horizon.cb.opened"
  | .halfOpen => "horizon.cb.half_open"

/-- The event that `state_change` emits, with its information. -/
def stateChange (bus : X733AlarmBus) (name : String) (oldState : Option CircuitState)
    (newState : CircuitState) (failCounter : ℕ) : Except PyErr X733AlarmBus :=
  let old := (oldState.map stateName).getD "init"
  match newState with
  | .open =>
    bus.emitEvent (breakerEvent .open)
      [("breaker", .str name), ("from_state", .str old), ("fail_counter", .int failCounter)] none
  | .halfOpen =>
    bus.emitEvent (breakerEvent .halfOpen) [("breaker", .str name), ("from_state", .str old)] none
  | .closed =>
    bus.emitEvent (breakerEvent .closed) [("breaker", .str name), ("from_state", .str old)] none

end HorizonRic.X733
