import HorizonRic.Observability.X733Alarms
import HorizonRic.Library.Machine
import Mathlib.Logic.Function.Basic

/-!
Which breakers the active alarms name. All breakers share one key of the
registry, where the last change of any of them stands: open breakers are visible
exactly as long as none changes state while another one is open.
-/
namespace HorizonRic.X733
open Py CircuitBreaker Machine

def breakerEvents : List String :=
  [breakerEvent .open, breakerEvent .halfOpen, breakerEvent .closed]

/-- An alarm about the breaker with the name. -/
def Names (name : String) (alarm : X733Alarm) : Prop :=
  alarm.additionalText ∈ breakerEvents ∧
    Dict.get? "breaker" alarm.additionalInformation = some (.str name)

/-- The bus, each breaker's last transition, and the last change of any breaker. -/
structure Monitored where
  bus : X733AlarmBus
  last : String → Option CircuitState
  lastChange : Option (String × CircuitState)

inductive BusEvent where
  | stateChange (name : String) (oldState : Option CircuitState) (newState : CircuitState)
      (failCounter : ℕ)
  | other (eventName : String) (additionalInformation : Dict Value)
      (severityOverride : Option X733Severity) (foreign : eventName ∉ breakerEvents)

def Monitored.init : Monitored := ⟨.init, fun _ => none, none⟩

/-- An event that raises leaves the bus as it is. -/
def Monitored.step (s : Monitored) : BusEvent → Option Monitored
  | .stateChange name oldState newState failCounter =>
    some { bus := ((X733.stateChange s.bus name oldState newState failCounter).toOption).getD s.bus
           last := Function.update s.last name (some newState)
           lastChange := some (name, newState) }
  | .other eventName additionalInformation severityOverride _ =>
    some { s with
      bus := ((s.bus.emitEvent eventName additionalInformation severityOverride).toOption).getD s.bus }

/-- Every open breaker has an active alarm that names it, and no closed one has. -/
def Visible (s : Monitored) : Prop :=
  ∀ name, (s.last name = some .open → ∃ alarm ∈ s.bus.activeAlarms, Names name alarm) ∧
    (s.last name = some .closed → ∀ alarm ∈ s.bus.activeAlarms, ¬Names name alarm)

/-- A breaker changes state while no other one is open. -/
def Alone (s : Monitored) : BusEvent → Prop
  | .stateChange name _ _ _ => ∀ other, other ≠ name → s.last other ≠ some .open
  | .other .. => True

/-- The key that all breakers share. -/
def breakerKey : AlarmKey :=
  ("rApp/horizon_ric", X733AlarmType.processingError.value, "internalServiceFailure")

/-- The registry holds the alarm of the last change of a breaker, at the breakers' key. -/
structure Registered (s : Monitored) : Prop where
  place : ∀ k alarm, (k, alarm) ∈ s.bus.active.items → alarm.additionalText ∈ breakerEvents →
    k = breakerKey
  entry : ∀ alarm, (breakerKey, alarm) ∈ s.bus.active.items →
    ∃ name state, s.lastChange = some (name, state) ∧ state ≠ .closed ∧ Names name alarm
  present : ∀ name state, s.lastChange = some (name, state) → s.last name = some state ∧
    (state ≠ .closed → ∃ alarm, (breakerKey, alarm) ∈ s.bus.active.items ∧ Names name alarm)

/-- No other event has the breakers' key. -/
theorem other_key : ∀ item ∈ failureMap, item.1 ∉ breakerEvents →
    ("rApp/horizon_ric", item.2.alarmType.value, item.2.probableCause) ≠ breakerKey := by
  decide

theorem breakerEvent_mem (state : CircuitState) : breakerEvent state ∈ breakerEvents := by
  cases state <;> decide

/-- What the listener does to the registry. -/
theorem stateChange_active (bus : X733AlarmBus) (name : String) (oldState : Option CircuitState)
    (newState : CircuitState) (failCounter : ℕ) :
    ∃ bus' alarm, X733.stateChange bus name oldState newState failCounter = .ok bus' ∧
      Names name alarm ∧ bus'.active =
        if newState = .closed then bus.active.pop breakerKey else bus.active.set breakerKey alarm := by
  cases newState with
  | closed =>
    let alarm : X733Alarm :=
      { alarmType := .processingError, probableCause := "internalServiceFailure"
        perceivedSeverity := .cleared, specificProblem := ""
        additionalText := breakerEvent .closed, additionalInformation := [("breaker", .str name)] }
    exact ⟨_, alarm, rfl, ⟨breakerEvent_mem .closed, rfl⟩, rfl⟩
  | «open» => exact ⟨_, _, rfl, ⟨breakerEvent_mem .open, rfl⟩, rfl⟩
  | halfOpen => exact ⟨_, _, rfl, ⟨breakerEvent_mem .halfOpen, rfl⟩, rfl⟩

theorem Names.unique {name name' : String} {alarm : X733Alarm} (names : Names name alarm)
    (names' : Names name' alarm) : name = name' := by
  have same := names.2.symm.trans names'.2
  simpa using same

theorem init_registered : Registered .init := by
  constructor
  · intro k alarm member
    cases member
  · intro alarm member
    cases member
  · intro name state change
    cases change

theorem step_registered {s s' : Monitored} {e : BusEvent} (registered : Registered s)
    (next : s.step e = some s') : Registered s' := by
  cases e with
  | stateChange name oldState newState failCounter =>
    obtain ⟨bus', alarm, emitted, names, active⟩ :=
      stateChange_active s.bus name oldState newState failCounter
    rw [Monitored.step, emitted] at next
    cases next
    by_cases closes : newState = .closed
    · rw [if_pos closes] at active
      constructor
      · intro k a member
        simp only [Except.toOption, Option.getD_some, active, Mapping.mem_pop] at member
        exact registered.place k a member.2
      · intro a member
        simp only [Except.toOption, Option.getD_some, active, Mapping.mem_pop] at member
        exact absurd rfl member.1
      · intro n state change
        cases change
        exact ⟨Function.update_self .., fun stays => absurd closes stays⟩
    · rw [if_neg closes] at active
      constructor
      · intro k a member text
        simp only [Except.toOption, Option.getD_some, active, Mapping.mem_set] at member
        rcases member with ⟨here, _⟩ | ⟨_, old⟩
        · exact here
        · exact registered.place k a old text
      · intro a member
        simp only [Except.toOption, Option.getD_some, active, Mapping.mem_set] at member
        rcases member with ⟨_, rfl⟩ | ⟨other, _⟩
        · exact ⟨name, newState, rfl, closes, names⟩
        · exact absurd rfl other
      · intro n state change
        cases change
        refine ⟨Function.update_self .., fun _ => ⟨alarm, ?_, names⟩⟩
        simp [Except.toOption, active, Mapping.mem_set]
  | other eventName information severity foreign =>
    rw [Monitored.step] at next
    cases next
    obtain ⟨old, kept⟩ := emitEvent_elsewhere other_key s.bus information severity foreign
    constructor
    · intro k alarm member text
      exact registered.place k alarm (old k alarm member (Or.inl text)) text
    · intro alarm member
      exact registered.entry alarm (old breakerKey alarm member (Or.inr rfl))
    · intro name state change
      obtain ⟨last, raised⟩ := registered.present name state change
      refine ⟨last, fun stays => ?_⟩
      obtain ⟨alarm, member, names⟩ := raised stays
      exact ⟨alarm, kept alarm member, names⟩

/-- Every open breaker is visible when each of them was the last to change. -/
theorem visible_iff {s : Monitored} (registered : Registered s) :
    Visible s ↔ ∀ name, s.last name = some .open → s.lastChange = some (name, .open) := by
  constructor
  · intro visible name isOpen
    obtain ⟨alarm, active, names⟩ := (visible name).1 isOpen
    obtain ⟨k, member⟩ := Mapping.mem_values.mp active
    obtain rfl := registered.place k alarm member names.1
    obtain ⟨name', state, change, _, names'⟩ := registered.entry alarm member
    obtain rfl := names.unique names'
    have state_ := (registered.present name state change).1
    rw [isOpen, Option.some.injEq] at state_
    rw [change, state_]
  · intro lastOnes name
    constructor
    · intro isOpen
      obtain ⟨_, raised⟩ := registered.present name .open (lastOnes name isOpen)
      obtain ⟨alarm, member, names⟩ := raised (by decide)
      exact ⟨alarm, Mapping.mem_values.mpr ⟨_, member⟩, names⟩
    · intro isClosed alarm active names
      obtain ⟨k, member⟩ := Mapping.mem_values.mp active
      obtain rfl := registered.place k alarm member names.1
      obtain ⟨name', state, change, notClosed, names'⟩ := registered.entry alarm member
      obtain rfl := names.unique names'
      have state_ := (registered.present name state change).1
      rw [isClosed, Option.some.injEq] at state_
      exact notClosed state_.symm

theorem step_alone {s s' : Monitored} {e : BusEvent}
    (lastOnes : ∀ name, s.last name = some .open → s.lastChange = some (name, .open))
    (alone : Alone s e) (next : s.step e = some s') :
    ∀ name, s'.last name = some .open → s'.lastChange = some (name, .open) := by
  intro name isOpen
  cases e with
  | stateChange changed oldState newState failCounter =>
    cases next
    by_cases here : name = changed
    · subst here
      have state : some newState = some CircuitState.open := by simpa using isOpen
      rw [Option.some.inj state]
    · have before : s.last name = some .open := by simpa [here] using isOpen
      exact absurd before (alone name here)
  | other =>
    cases next
    exact lastOnes name isOpen

theorem change_hides {s : Monitored} (registered : Registered s) {name other : String}
    (oldState : Option CircuitState) (newState : CircuitState) (failCounter : ℕ)
    (different : other ≠ name) (isOpen : s.last other = some .open) :
    ∃ s', s.step (.stateChange name oldState newState failCounter) = some s' ∧ ¬Visible s' := by
  refine ⟨_, rfl, fun visible => ?_⟩
  have after := step_registered registered (e := .stateChange name oldState newState failCounter) rfl
  have still : Function.update s.last name (some newState) other = some .open := by
    rw [Function.update_of_ne different, isOpen]
  have last := (visible_iff after).mp visible other still
  exact different (Prod.mk.inj (Option.some.inj last)).1.symm

/-- Every state of a run shows its open breakers, and no closed one, exactly when no breaker
    changes state while another one is open. -/
theorem open_breakers_visible (events : List BusEvent) :
    (∀ before after s, events = before ++ after →
      run Monitored.step .init before = some s → Visible s) ↔
    Along Monitored.step Alone .init events := by
  have registered : ∀ before s, run Monitored.step .init before = some s → Registered s :=
    fun before s reached => run_invariant Registered (fun _ _ _ => step_registered) init_registered
      reached
  constructor
  · intro visible
    apply along_iff.mpr
    intro before e after s split reached
    cases e with
    | other => trivial
    | stateChange name oldState newState failCounter =>
      intro other different isOpen
      obtain ⟨s', next, hidden⟩ := change_hides (registered before s reached) oldState newState
        failCounter different isOpen
      apply hidden
      refine visible (before ++ [.stateChange name oldState newState failCounter]) after s'
        (by simp [split]) ?_
      rw [run_append, reached]
      simp [run, next]
  · intro along before after s split reached
    rw [visible_iff (registered before s reached)]
    refine run_keeps (fun s => ∀ name, s.last name = some .open →
      s.lastChange = some (name, .open)) (fun _ _ _ => step_alone) ?_ (split ▸ along).prefix_ reached
    intro name isOpen
    cases isOpen

/-- Two breakers open, and the second one closes. -/
theorem open_breaker_hidden :
    ¬∀ events s, run Monitored.step .init events = some s → Visible s := by
  intro all
  have visible := all [.stateChange "a1" (some .closed) .open 5,
    .stateChange "r1" (some .closed) .open 5, .stateChange "r1" (some .halfOpen) .closed 0] _ rfl
  obtain ⟨alarm, active, _⟩ := (visible "a1").1 (by decide)
  cases active

end HorizonRic.X733
