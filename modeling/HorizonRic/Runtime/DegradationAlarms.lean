import HorizonRic.Runtime.GracefulDegradation
import HorizonRic.Library.Machine
import HorizonRic.Evidence.Append

/-!
What the registry of active alarms says about the degraded mode once every
transition has emitted its alarm. The last alarm emitted stands there, whatever
the order of the transitions was.
-/
namespace HorizonRic.Degradation
open Py X733 Machine

/-- The one key of the registry that both alarms have. -/
def degradedKey : AlarmKey := ("rApp/horizon_ric", X733AlarmType.qos.value, "qosAlarm")

/-- The failure after the last of the announcements. -/
def targetOf (announcements : List Announcement) : Option FailureMode :=
  announcements.getLast?.bind Announcement.target

/-- An alarm that a degraded mode was entered with the failure. -/
def Reports (mode : FailureMode) (alarm : X733Alarm) : Prop :=
  alarm.additionalText ∈ degradedEvents ∧
    Dict.get? "failure_mode" alarm.additionalInformation = some (.str mode.value)

/-- The active alarms report the controller's failure and no other, and none while it serves. -/
structure Matched (s : System) : Prop where
  reports : ∀ mode, s.controller.failureMode = some mode ↔
    ∃ alarm ∈ s.bus.activeAlarms, Reports mode alarm
  serving : s.controller.isServing = true ↔
    ∀ alarm ∈ s.bus.activeAlarms, alarm.additionalText ∉ degradedEvents

/-- Alarms are emitted in the order of the transitions. -/
def InOrder (_ : System) : Event → Prop
  | .emit k => k = 0
  | _ => True

/-- The registry holds the alarm of the last announcement that was emitted, at the one key. -/
structure Announced (s : System) : Prop where
  all : (s.emitted ++ s.inFlight).Perm s.transitions
  current : s.controller.failureMode = targetOf s.transitions
  place : ∀ k alarm, (k, alarm) ∈ s.bus.active.items → alarm.additionalText ∈ degradedEvents →
    k = degradedKey
  entry : ∀ alarm, (degradedKey, alarm) ∈ s.bus.active.items →
    ∃ mode, targetOf s.emitted = some mode ∧ Reports mode alarm
  present : ∀ mode, targetOf s.emitted = some mode →
    ∃ alarm, (degradedKey, alarm) ∈ s.bus.active.items ∧ Reports mode alarm

theorem degraded_apart : ∀ item ∈ failureMap, item.1 ∉ degradedEvents →
    ("rApp/horizon_ric", item.2.alarmType.value, item.2.probableCause) ≠ degradedKey := by
  decide

theorem targetOf_concat (announcements : List Announcement) (a : Announcement) :
    targetOf (announcements ++ [a]) = a.target := by
  rw [targetOf, List.getLast?_concat]
  rfl

theorem Reports.unique {mode mode' : FailureMode} {alarm : X733Alarm} (reports : Reports mode alarm)
    (reports' : Reports mode' alarm) : mode = mode' := by
  have same := reports.2.symm.trans reports'.2
  cases mode <;> cases mode' <;> simp [FailureMode.value] at same ⊢

/-- What an emission does to the registry. -/
theorem emit_active (bus : X733AlarmBus) (a : Announcement) :
    ∃ bus' alarm, bus.emitEvent a.eventName a.information none = .ok bus' ∧
      (∀ mode, a.target = some mode → Reports mode alarm) ∧
      bus'.active =
        if a.target = none then bus.active.pop degradedKey
        else bus.active.set degradedKey alarm := by
  cases a with
  | entered fromState mode reason =>
    refine ⟨_, _, rfl, ?_, rfl⟩
    intro mode' same
    cases same
    exact ⟨List.mem_cons_self, rfl⟩
  | recovered fromState mode reason =>
    let alarm : X733Alarm :=
      { alarmType := .qos, probableCause := "qosAlarm", perceivedSeverity := .cleared
        specificProblem := "" }
    refine ⟨_, alarm, rfl, ?_, rfl⟩
    intro mode' same
    cases same

theorem start_announced (tmpBuffer : List Char) : Announced (.start tmpBuffer) where
  all := List.Perm.refl _
  current := rfl
  place k alarm member := by cases member
  entry alarm member := by cases member
  present mode none_ := by cases none_

/-- A call under the lock leaves the registry alone, and its transition is the last one. -/
theorem call_announces (py : Interpreter) (s : System) (c : Call) :
    (s.call py c).bus = s.bus ∧ (s.call py c).emitted = s.emitted ∧
      ∃ more : Option Announcement, (s.call py c).transitions = s.transitions ++ more.toList ∧
        (s.call py c).inFlight = s.inFlight ++ more.toList ∧
        (s.call py c).controller.failureMode =
          match more with
          | none => s.controller.failureMode
          | some a => a.target := by
  have keeps : ∀ d : DegradationController, d.failureMode = s.controller.failureMode →
      ∃ more : Option Announcement, s.transitions = s.transitions ++ more.toList ∧
        s.inFlight = s.inFlight ++ more.toList ∧
        d.failureMode = match more with
          | none => s.controller.failureMode
          | some a => a.target :=
    fun d same => ⟨none, (List.append_nil _).symm, (List.append_nil _).symm, same⟩
  refine ⟨by cases c <;> rfl, by cases c <;> rfl, ?_⟩
  cases c with
  | enter mode reason now =>
    refine ⟨(s.controller.enter mode reason now).2, rfl, rfl, ?_⟩
    rcases s.controller.enter_cases mode reason now with ⟨_, same⟩ | ⟨_, moved, announced⟩
    · simp only [System.call, System.announce, same]
    · simp only [System.call, System.announce, announced, moved, Announcement.target]
  | recover reason =>
    refine ⟨(s.controller.recover reason).2, rfl, rfl, ?_⟩
    rcases s.controller.recover_cases reason with ⟨_, same⟩ | ⟨_, moved, announced⟩
    · simp only [System.call, System.announce, same]
    · simp only [System.call, System.announce, announced, moved, Announcement.target]
  | recordLastGoodPolicy policyType policyId payload now => exact keeps _ rfl
  | bufferEvidence record fails => exact keeps _ rfl
  | holdDecision decision => exact keeps _ rfl
  | drainBufferedEvidence => exact keeps _ rfl
  | drainHeldDecisions => exact keeps _ rfl

section
variable {py : Interpreter} {s s' : System}

theorem call_announced (c : Call) (announced : Announced s) : Announced (s.call py c) := by
  obtain ⟨bus, emitted, more, transitions, inFlight, mode⟩ := call_announces py s c
  constructor
  · rw [emitted, transitions, inFlight, ← List.append_assoc]
    exact announced.all.append_right _
  · rw [mode, transitions]
    cases more with
    | none => rw [Option.toList_none, List.append_nil, announced.current]
    | some a => rw [Option.toList_some, targetOf_concat]
  · rw [bus]
    exact announced.place
  · rw [bus, emitted]
    exact announced.entry
  · rw [bus, emitted]
    exact announced.present

theorem emit_announced {k : ℕ} {a : Announcement} (announced : Announced s)
    (waits : s.inFlight[k]? = some a) :
    Announced { s with
      bus := ((s.bus.emitEvent a.eventName a.information none).toOption).getD s.bus
      inFlight := s.inFlight.eraseIdx k
      emitted := s.emitted ++ [a] } := by
  obtain ⟨bus', alarm, emits, reports, active⟩ := emit_active s.bus a
  rw [emits]
  simp only [Except.toOption, Option.getD_some]
  have order : (s.emitted ++ [a] ++ s.inFlight.eraseIdx k).Perm s.transitions := by
    obtain ⟨inside, rfl⟩ := List.getElem?_eq_some_iff.mp waits
    refine List.Perm.trans ?_ announced.all
    rw [List.append_assoc]
    exact (List.getElem_cons_eraseIdx_perm inside).append_left _
  by_cases clears : a.target = none
  · rw [if_pos clears] at active
    refine ⟨order, announced.current, ?_, ?_, ?_⟩
    · intro k alarm member
      rw [active, Mapping.mem_pop] at member
      exact announced.place k alarm member.2
    · intro alarm member
      rw [active, Mapping.mem_pop] at member
      exact absurd rfl member.1
    · intro mode last
      rw [targetOf_concat, clears] at last
      cases last
  · rw [if_neg clears] at active
    obtain ⟨mode, target⟩ := Option.ne_none_iff_exists'.mp clears
    refine ⟨order, announced.current, ?_, ?_, ?_⟩
    · intro k alarm' member text
      rw [active, Mapping.mem_set] at member
      rcases member with ⟨here, _⟩ | ⟨_, old⟩
      · exact here
      · exact announced.place k alarm' old text
    · intro alarm' member
      rw [active, Mapping.mem_set] at member
      rcases member with ⟨_, rfl⟩ | ⟨other, _⟩
      · exact ⟨mode, by rw [targetOf_concat, target], reports mode target⟩
      · exact absurd rfl other
    · intro mode' last
      rw [targetOf_concat] at last
      refine ⟨alarm, ?_, reports mode' last⟩
      rw [active, Mapping.mem_set]
      exact Or.inl ⟨rfl, rfl⟩

theorem step_announced {e : Event} (announced : Announced s)
    (next : s.step py e = some s') : Announced s' := by
  cases e with
  | call c =>
    cases next
    exact call_announced c announced
  | emit k =>
    rw [System.step] at next
    split at next
    · cases next
    · rename_i a waits
      cases next
      exact emit_announced announced waits
  | other eventName information severity foreign =>
    cases next
    obtain ⟨old, kept⟩ := emitEvent_elsewhere degraded_apart s.bus information severity foreign
    refine ⟨announced.all, announced.current, ?_, ?_, ?_⟩
    · intro k alarm member text
      exact announced.place k alarm (old k alarm member (Or.inl text)) text
    · intro alarm member
      exact announced.entry alarm (old degradedKey alarm member (Or.inr rfl))
    · intro mode last
      obtain ⟨alarm, member, reports⟩ := announced.present mode last
      exact ⟨alarm, kept alarm member, reports⟩

/-- The active alarms are those of the last emission. -/
theorem Announced.reports_iff (announced : Announced s) (mode : FailureMode) :
    (∃ alarm ∈ s.bus.activeAlarms, Reports mode alarm) ↔ targetOf s.emitted = some mode := by
  constructor
  · rintro ⟨alarm, active, reports⟩
    obtain ⟨k, member⟩ := Mapping.mem_values.mp active
    obtain rfl := announced.place k alarm member reports.1
    obtain ⟨mode', last, reports'⟩ := announced.entry alarm member
    rw [last, reports.unique reports']
  · intro last
    obtain ⟨alarm, member, reports⟩ := announced.present mode last
    exact ⟨alarm, Mapping.mem_values.mpr ⟨_, member⟩, reports⟩

theorem Announced.quiet_iff (announced : Announced s) :
    (∀ alarm ∈ s.bus.activeAlarms, alarm.additionalText ∉ degradedEvents) ↔
      targetOf s.emitted = none := by
  constructor
  · intro silent
    by_contra some_
    obtain ⟨mode, last⟩ := Option.ne_none_iff_exists'.mp some_
    obtain ⟨alarm, active, reports⟩ := (announced.reports_iff mode).mpr last
    exact silent alarm active reports.1
  · intro last alarm active text
    obtain ⟨k, member⟩ := Mapping.mem_values.mp active
    obtain rfl := announced.place k alarm member text
    obtain ⟨mode, last', _⟩ := announced.entry alarm member
    rw [last] at last'
    cases last'

theorem Announced.matched_iff (announced : Announced s) :
    Matched s ↔ targetOf s.emitted = targetOf s.transitions := by
  rw [← announced.current]
  constructor
  · intro matched
    apply Option.ext
    intro mode
    rw [← announced.reports_iff mode]
    exact (matched.reports mode).symm
  · intro same
    constructor
    · intro mode
      rw [announced.reports_iff mode, same]
    · rw [announced.quiet_iff, same, s.controller.serving_iff]

/-- Emitted in order, what was emitted is the beginning of what was announced. -/
theorem step_inOrder {e : Event} (order : s.emitted ++ s.inFlight = s.transitions)
    (first : InOrder s e) (next : s.step py e = some s') :
    s'.emitted ++ s'.inFlight = s'.transitions := by
  cases e with
  | call c =>
    cases next
    obtain ⟨_, emitted, more, transitions, inFlight, _⟩ := call_announces py s c
    rw [emitted, inFlight, transitions, ← order, List.append_assoc]
  | emit k =>
    obtain rfl : k = 0 := first
    rw [System.step] at next
    split at next
    · cases next
    · rename_i a waits
      cases next
      cases filled : s.inFlight with
      | nil => simp [filled] at waits
      | cons b rest =>
        rw [filled, List.getElem?_cons_zero, Option.some.injEq] at waits
        rw [← order, filled, waits, List.eraseIdx_cons_zero, List.append_assoc,
          List.singleton_append]
  | other eventName information severity foreign =>
    cases next
    exact order

end

/-- Once every alarm is out, whatever the order of calls and emissions was, the active alarms match
    the controller exactly when the last alarm emitted leads where the last transition led. They
    always do when alarms are emitted in the order of their transitions. -/
theorem alarms_matched_iff (py : Interpreter) (tmpBuffer : List Char) (events : List Event)
    (s : System) (reached : run (System.step py) (.start tmpBuffer) events = some s)
    (quiet : s.inFlight = []) :
    s.emitted.Perm s.transitions ∧
    (Matched s ↔ targetOf s.emitted = targetOf s.transitions) ∧
    (Along (System.step py) InOrder (.start tmpBuffer) events → Matched s) := by
  have announced : Announced s := run_invariant Announced (fun _ _ _ => step_announced)
    (start_announced tmpBuffer) reached
  refine ⟨?_, announced.matched_iff, ?_⟩
  · have all := announced.all
    rwa [quiet, List.append_nil] at all
  · intro along
    have order : s.emitted ++ s.inFlight = s.transitions :=
      run_keeps (fun s => s.emitted ++ s.inFlight = s.transitions)
        (fun _ _ _ => step_inOrder) rfl along reached
    rw [quiet, List.append_nil] at order
    rw [announced.matched_iff, order]

/-- A failure is entered and recovered from, and then the two alarms are emitted. -/
def entersAndRecovers (first second : ℕ) : List Event :=
  [.call (.enter .smoUnreachable "cb_open" (.fin 0)), .call (.recover "dep_healthy"), .emit first,
    .emit second]

/-- In order the alarms match. With the alarm of the recovery first, the controller serves, every
    alarm is out, and the registry still reports the failure. -/
theorem overtaken_unmatched :
    (∃ s, run (System.step Evidence.sampleInterpreter) (.start []) (entersAndRecovers 0 0) =
      some s ∧ Matched s) ∧
    ∃ s, run (System.step Evidence.sampleInterpreter) (.start []) (entersAndRecovers 1 0) =
      some s ∧ s.inFlight = [] ∧ s.controller.isServing = true ∧ ¬Matched s := by
  constructor
  · refine ⟨_, rfl, ?_⟩
    refine (alarms_matched_iff Evidence.sampleInterpreter [] (entersAndRecovers 0 0) _ rfl
      rfl).2.2 ?_
    simp [entersAndRecovers, Along, InOrder]
  · refine ⟨_, rfl, rfl, by decide, ?_⟩
    rw [(alarms_matched_iff Evidence.sampleInterpreter [] (entersAndRecovers 1 0) _ rfl rfl).2.1]
    decide

end HorizonRic.Degradation
