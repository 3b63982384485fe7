import HorizonRic.E2.KpmTimestamp
import HorizonRic.Library.BoundedBuffer
import HorizonRic.Python.Format
import HorizonRic.Python.Raises

/-!
`security/nis2_reporter.py`: the authentication events, held in a deque of bounded
length, and the failure rate over a window of time. A rate is computed in floats,
whose rounding is a function of the exact result.
-/
namespace HorizonRic.Nis2

open Py KpmBridge BoundedBuffer

/-- A `datetime`: its wall clock, and the offset from UTC of an aware one, in microseconds. -/
structure When where
  wall : DateTime
  utcOffset : Option ℤ

/-- One entry of `_auth_events`: microseconds in UTC, and whether the attempt succeeded. -/
structure AuthEvent where
  time : ℤ
  ok : Bool

/-- The arguments of `record_auth_event`, and the time its clock would give. -/
structure AuthCall where
  success : Bool
  when_ : Option When := none
  clock : When

/-- A time without an offset is taken in UTC. -/
def AuthCall.event (call : AuthCall) : AuthEvent :=
  let when_ := call.when_.getD call.clock
  match when_.utcOffset with
  | none => ⟨when_.wall.micros, call.success⟩
  | some offset => ⟨when_.wall.micros - offset, call.success⟩

/-- `deque(maxlen=10_000)`. -/
def maxlen : ℕ := 10000

structure Reporter where
  authFailureWindowSeconds : ℤ := 300
  authFailureThresholdPct : Number := .fin 1
  authEvents : List AuthEvent := []

def Reporter.recordAuthEvent (r : Reporter) (call : AuthCall) : Reporter :=
  { r with authEvents := push maxlen r.authEvents call.event }

/-- The keyword arguments of `trigger_incident`, its evidence spelled out. -/
structure Trigger where
  severity : String
  scope : String
  failureRatePct : Number
  thresholdPct : Number
  windowSeconds : ℤ
  samples : ℕ
  failures : ℕ
  triggerKind : String

def failuresIn (events : List AuthEvent) : ℕ := events.countP fun e => !e.ok

/-- `now - timedelta(seconds=...)`. -/
def windowStart (now : DateTime) (seconds : ℤ) : Except PyErr DateTime :=
  if low : yearOne ≤ now.micros - seconds * 10 ^ 6 then
    if high : now.micros - seconds * 10 ^ 6 < year10000 then .ok ⟨_, low, high⟩
    else .error .overflowError
  else .error .overflowError

section
variable (float : ℚ → ℚ)

/-- `(failures / len(recent)) * 100.0`. -/
def ratePct (events : List AuthEvent) : Number :=
  .fin (float (float (failuresIn events / events.length) * 100))

def Reporter.trigger (r : Reporter) (events : List AuthEvent) : Trigger where
  severity := "high"
  scope := "auth-failure rate " ++ fmtFixed 2 (ratePct float events) ++ "% over " ++
    toString r.authFailureWindowSeconds ++ "s"
  failureRatePct := ratePct float events
  thresholdPct := r.authFailureThresholdPct
  windowSeconds := r.authFailureWindowSeconds
  samples := events.length
  failures := failuresIn events
  triggerKind := "auth_failure_rate"

/-- `auto_check_auth_failure_rate`, up to the call of `trigger_incident`. -/
def Reporter.autoCheckAuthFailureRate (r : Reporter) (now : DateTime) :
    Except PyErr (Option Trigger) := do
  let start ← windowStart now r.authFailureWindowSeconds
  let recent := r.authEvents.filter fun e => start.micros ≤ e.time
  if recent.length < 10 then return none
  if Number.le (ratePct float recent) r.authFailureThresholdPct then return none
  return some (r.trigger float recent)

/-! What the alarm is for. -/

/-- Enough events, and a percentage of failures that is not at most the threshold. -/
def Reporter.Alarming (r : Reporter) (events : List AuthEvent) : Prop :=
  10 ≤ events.length ∧ ¬Number.le (ratePct float events) r.authFailureThresholdPct = true

instance (r : Reporter) (events : List AuthEvent) : Decidable (r.Alarming float events) :=
  inferInstanceAs (Decidable (_ ∧ _))

def Reporter.verdict (r : Reporter) (events : List AuthEvent) : Option Trigger :=
  if r.Alarming float events then some (r.trigger float events) else none

/-- The recorded events of the last `auth_failure_window_seconds` before the check. -/
def insideWindow (now : DateTime) (seconds : ℤ) (events : List AuthEvent) : List AuthEvent :=
  events.filter fun e => now.micros - seconds * 10 ^ 6 ≤ e.time ∧ e.time ≤ now.micros

/-- The recorded events from the start of the window on, which are those the check looks for. -/
def sinceStart (now : DateTime) (seconds : ℤ) (events : List AuthEvent) : List AuthEvent :=
  events.filter fun e => now.micros - seconds * 10 ^ 6 ≤ e.time

/-- A reporter as it is constructed. -/
def Reporter.init (windowSeconds : ℤ) (thresholdPct : Number) : Reporter where
  authFailureWindowSeconds := windowSeconds
  authFailureThresholdPct := thresholdPct

/-- After the calls, the check answers as the whole window does. -/
def SeesWholeWindow (windowSeconds : ℤ) (thresholdPct : Number) (calls : List AuthCall)
    (now : DateTime) : Prop :=
  (calls.foldl Reporter.recordAuthEvent
      (.init windowSeconds thresholdPct)).autoCheckAuthFailureRate float now =
    .ok ((Reporter.init windowSeconds thresholdPct).verdict float
      (insideWindow now windowSeconds (calls.map AuthCall.event)))

/-- The start of the window is a date, and what the deque still holds of the events since then
    is the whole window, or alarms no more than it does, or happens to have its numbers where
    events lie after the check. -/
structure KeepsWindow (windowSeconds : ℤ) (thresholdPct : Number) (events : List AuthEvent)
    (now : DateTime) : Prop where
  start : yearOne ≤ now.micros - windowSeconds * 10 ^ 6 ∧
    now.micros - windowSeconds * 10 ^ 6 < year10000
  held :
    let r := Reporter.init windowSeconds thresholdPct
    let window := insideWindow now windowSeconds events
    let kept := latest maxlen (sinceStart now windowSeconds events)
    ((∀ e ∈ events, e.time ≤ now.micros) ∧ window.length ≤ maxlen) ∨
      (¬r.Alarming float kept ∧ ¬r.Alarming float window) ∨
      ((∃ e ∈ events, now.micros < e.time) ∧ kept.length = window.length ∧
        failuresIn kept = failuresIn window)

end

/-! The calls, and the check after them. -/

theorem foldl_recordAuthEvent (calls : List AuthCall) (r : Reporter) :
    calls.foldl Reporter.recordAuthEvent r =
      { r with authEvents := (calls.map AuthCall.event).foldl (push maxlen) r.authEvents } := by
  induction calls generalizing r with
  | nil => rfl
  | cons call calls ih => exact ih (r.recordAuthEvent call)

section
variable {float : ℚ → ℚ} {r : Reporter} {now : DateTime}

theorem verdict_alarming {events : List AuthEvent} (alarming : r.Alarming float events) :
    r.verdict float events = some (r.trigger float events) := if_pos alarming

theorem verdict_quiet {events : List AuthEvent} (quiet : ¬r.Alarming float events) :
    r.verdict float events = none := if_neg quiet

/-- The verdict is about the events it is given, not about those the deque holds. -/
theorem verdict_authEvents (held events : List AuthEvent) :
    ({ r with authEvents := held } : Reporter).verdict float events = r.verdict float events := rfl

theorem check_ok {start : DateTime}
    (represented : windowStart now r.authFailureWindowSeconds = .ok start) :
    r.autoCheckAuthFailureRate float now =
      .ok (r.verdict float (r.authEvents.filter fun e => start.micros ≤ e.time)) := by
  unfold Reporter.autoCheckAuthFailureRate Reporter.verdict Reporter.Alarming
  rw [represented]
  by_cases few : (r.authEvents.filter fun e => start.micros ≤ e.time).length < 10
  · have notEnough : ¬10 ≤ (r.authEvents.filter fun e => start.micros ≤ e.time).length := by omega
    simp only [ok_bind, if_pos few, notEnough, false_and, if_false]
    rfl
  · have enough : 10 ≤ (r.authEvents.filter fun e => start.micros ≤ e.time).length := by omega
    simp only [ok_bind, if_neg few, enough, true_and]
    by_cases atMost : Number.le (ratePct float (r.authEvents.filter fun e => start.micros ≤ e.time))
        r.authFailureThresholdPct = true
    · rw [if_pos atMost, if_neg (not_not.mpr atMost)]
      rfl
    · rw [if_neg atMost, if_pos atMost]
      rfl

theorem windowStart_eq_ok {seconds : ℤ} {start : DateTime} :
    windowStart now seconds = .ok start ↔ start.micros = now.micros - seconds * 10 ^ 6 := by
  unfold windowStart
  constructor
  · intro represented
    split at represented
    · split at represented
      · cases represented
        rfl
      · cases represented
    · cases represented
  · intro micros
    have low := start.fromYearOne
    have high := start.beforeYear10000
    rw [micros] at low high
    rw [dif_pos low, dif_pos high]
    exact congrArg Except.ok (DateTime.ext micros.symm)

theorem windowStart_isOk_iff (seconds : ℤ) : (∃ start, windowStart now seconds = .ok start) ↔
    yearOne ≤ now.micros - seconds * 10 ^ 6 ∧ now.micros - seconds * 10 ^ 6 < year10000 := by
  constructor
  · rintro ⟨start, represented⟩
    rw [← windowStart_eq_ok.mp represented]
    exact ⟨start.fromYearOne, start.beforeYear10000⟩
  · rintro ⟨low, high⟩
    exact ⟨⟨_, low, high⟩, windowStart_eq_ok.mpr rfl⟩

/-- A verdict is as good as another when neither alarms or the numbers are the same. -/
theorem verdict_eq_iff (kept window : List AuthEvent) :
    r.verdict float kept = r.verdict float window ↔
      (¬r.Alarming float kept ∧ ¬r.Alarming float window) ∨
        (kept.length = window.length ∧ failuresIn kept = failuresIn window) := by
  constructor
  · intro same
    by_cases alarming : r.Alarming float kept
    · by_cases alarmed : r.Alarming float window
      · rw [verdict_alarming alarming, verdict_alarming alarmed] at same
        have trigger := Option.some.inj same
        exact Or.inr ⟨congrArg Trigger.samples trigger, congrArg Trigger.failures trigger⟩
      · rw [verdict_alarming alarming, verdict_quiet alarmed] at same
        cases same
    · by_cases alarmed : r.Alarming float window
      · rw [verdict_quiet alarming, verdict_alarming alarmed] at same
        cases same
      · exact Or.inl ⟨alarming, alarmed⟩
  · rintro (⟨quiet, still⟩ | ⟨samples, failures⟩)
    · rw [verdict_quiet quiet, verdict_quiet still]
    · have rate : ratePct float kept = ratePct float window := by
        unfold ratePct
        rw [samples, failures]
      have alarming : r.Alarming float kept ↔ r.Alarming float window := by
        unfold Reporter.Alarming
        rw [rate, samples]
      by_cases alarmed : r.Alarming float window
      · rw [verdict_alarming alarmed, verdict_alarming (alarming.mpr alarmed)]
        unfold Reporter.trigger
        rw [rate, samples, failures]
      · rw [verdict_quiet alarmed, verdict_quiet (alarmed ∘ alarming.mp)]

end

theorem sinceStart_toEnd {events : List AuthEvent} (ordered : events.Pairwise (·.time ≤ ·.time))
    (start : ℤ) : ToTheEnd (fun e : AuthEvent => decide (start ≤ e.time)) events := by
  refine ordered.imp fun {a b} le inside => ?_
  simp only [decide_eq_true_eq] at inside ⊢
  omega

theorem sinceStart_of_none_later {events : List AuthEvent} {now : DateTime}
    (none_ : ∀ e ∈ events, e.time ≤ now.micros) (seconds : ℤ) :
    sinceStart now seconds events = insideWindow now seconds events := by
  unfold sinceStart insideWindow
  refine List.filter_congr fun e member => ?_
  simp [none_ e member]

section
variable (float : ℚ → ℚ) {windowSeconds : ℤ} {thresholdPct : Number} {calls : List AuthCall}
  {now : DateTime}

theorem reporter_after_calls :
    calls.foldl Reporter.recordAuthEvent (.init windowSeconds thresholdPct) =
      { Reporter.init windowSeconds thresholdPct with
        authEvents := latest maxlen (calls.map AuthCall.event) } := by
  rw [foldl_recordAuthEvent]
  exact congrArg (Reporter.mk windowSeconds thresholdPct) (foldl_push _ _)

/-- The check judges the last events since the start of the window that the deque can hold. -/
theorem check_after_calls {start : DateTime} (represented : windowStart now windowSeconds = .ok start)
    (ordered : (calls.map AuthCall.event).Pairwise (·.time ≤ ·.time)) :
    (calls.foldl Reporter.recordAuthEvent
        (.init windowSeconds thresholdPct)).autoCheckAuthFailureRate float now =
      .ok ((Reporter.init windowSeconds thresholdPct).verdict float
        (latest maxlen (sinceStart now windowSeconds (calls.map AuthCall.event)))) := by
  have kept : (latest maxlen (calls.map AuthCall.event)).filter (fun e => start.micros ≤ e.time) =
      latest maxlen (sinceStart now windowSeconds (calls.map AuthCall.event)) := by
    rw [latest_filter (sinceStart_toEnd ordered start.micros), windowStart_eq_ok.mp represented]
    rfl
  rw [reporter_after_calls, check_ok represented, kept, verdict_authEvents]

/-- No check succeeds whose window would start before year 1. -/
theorem check_unrepresented {error : PyErr} (raised : windowStart now windowSeconds = .error error) :
    (calls.foldl Reporter.recordAuthEvent
        (.init windowSeconds thresholdPct)).autoCheckAuthFailureRate float now = .error error := by
  rw [reporter_after_calls]
  unfold Reporter.autoCheckAuthFailureRate Reporter.init
  simp only [raised]
  rfl

/-- The alarm sees the whole window in exactly these cases; without events after the check: when
    at most 10,000 of them lie in the window, or neither the window nor its last 10,000 alarm. -/
theorem seesWholeWindow_iff (windowSeconds : ℤ) (thresholdPct : Number) (calls : List AuthCall)
    (now : DateTime) (ordered : (calls.map AuthCall.event).Pairwise (·.time ≤ ·.time)) :
    SeesWholeWindow float windowSeconds thresholdPct calls now ↔
      KeepsWindow float windowSeconds thresholdPct (calls.map AuthCall.event) now := by
  unfold SeesWholeWindow
  cases represented : windowStart now windowSeconds with
  | error e =>
    refine iff_of_false (fun answered => ?_) fun keeps => ?_
    · rw [check_unrepresented float represented] at answered
      cases answered
    · obtain ⟨start, isStart⟩ := (windowStart_isOk_iff windowSeconds).mpr keeps.start
      rw [represented] at isStart
      cases isStart
  | ok start =>
    have bounds := (windowStart_isOk_iff windowSeconds).mp ⟨start, represented⟩
    rw [check_after_calls float represented ordered]
    constructor
    · intro same
      refine ⟨bounds, ?_⟩
      rcases (verdict_eq_iff _ _).mp (Except.ok.inj same) with quiet | numbers
      · exact Or.inr (Or.inl quiet)
      · by_cases later : ∃ e ∈ calls.map AuthCall.event, now.micros < e.time
        · exact Or.inr (Or.inr ⟨later, numbers⟩)
        · have noneLater : ∀ e ∈ calls.map AuthCall.event, e.time ≤ now.micros := by
            intro e member
            exact not_lt.mp fun after => later ⟨e, member, after⟩
          have lengths := numbers.1
          rw [sinceStart_of_none_later noneLater, latest_length] at lengths
          exact Or.inl ⟨noneLater, by omega⟩
    · rintro ⟨_, ⟨noneLater, fits⟩ | quiet | ⟨_, numbers⟩⟩
      · rw [sinceStart_of_none_later noneLater, latest_of_le fits]
      · exact congrArg Except.ok ((verdict_eq_iff _ _).mpr (Or.inl quiet))
      · exact congrArg Except.ok ((verdict_eq_iff _ _).mpr (Or.inr numbers))

end

def epoch : DateTime := ⟨0, by decide, by decide⟩

def attempt (success : Bool) : AuthCall := { success := success, clock := ⟨epoch, some 0⟩ }

/-- Ten failures fit into the deque. -/
theorem seesWholeWindow_ten :
    SeesWholeWindow id 300 (.fin 1) (List.replicate 10 (attempt false)) epoch :=
  (seesWholeWindow_iff id 300 (.fin 1) (List.replicate 10 (attempt false)) epoch (by decide)).mpr
    ⟨by decide, Or.inl ⟨by decide, by decide⟩⟩

/-! A flood of successes after the failures. -/

def flood : List AuthCall :=
  List.replicate 1000 (attempt false) ++ List.replicate 10000 (attempt true)

theorem flood_events : flood.map AuthCall.event =
    List.replicate 1000 ⟨0, false⟩ ++ List.replicate 10000 ⟨0, true⟩ := by
  unfold flood
  rw [List.map_append, List.map_replicate, List.map_replicate]
  rfl

theorem flood_time : ∀ e ∈ flood.map AuthCall.event, e.time = 0 := by
  rw [flood_events]
  intro e member
  rcases List.mem_append.mp member with failed | succeeded
  · rw [List.eq_of_mem_replicate failed]
  · rw [List.eq_of_mem_replicate succeeded]

theorem flood_ordered : (flood.map AuthCall.event).Pairwise (·.time ≤ ·.time) := by
  refine List.pairwise_of_forall_mem_list fun a first b second => ?_
  rw [flood_time a first, flood_time b second]

theorem flood_window : insideWindow epoch 300 (flood.map AuthCall.event) =
    flood.map AuthCall.event := by
  refine List.filter_eq_self.mpr fun e member => ?_
  rw [flood_time e member]
  decide

theorem flood_since : sinceStart epoch 300 (flood.map AuthCall.event) =
    flood.map AuthCall.event := by
  refine List.filter_eq_self.mpr fun e member => ?_
  rw [flood_time e member]
  decide

theorem flood_kept : latest maxlen (flood.map AuthCall.event) = List.replicate 10000 ⟨0, true⟩ := by
  unfold maxlen
  rw [flood_events, latest_append_of_le (by rw [List.length_replicate]), latest_of_le]
  rw [List.length_replicate]

/-- The 1,000 failures are 9 % of the window, and the deque has dropped all of them. -/
theorem flood_unseen : ¬SeesWholeWindow id 300 (.fin 1) flood epoch ∧
    (Reporter.init 300 (.fin 1)).Alarming id (insideWindow epoch 300 (flood.map AuthCall.event)) ∧
      (flood.foldl Reporter.recordAuthEvent (.init 300 (.fin 1))).autoCheckAuthFailureRate id
        epoch = .ok none := by
  have start : windowStart epoch 300 = .ok ⟨-300000000, by decide, by decide⟩ :=
    windowStart_eq_ok.mpr rfl
  have rate : ratePct id (List.replicate 10000 ⟨0, true⟩) = .fin 0 := by
    have none_ : failuresIn (List.replicate 10000 ⟨0, true⟩) = 0 := List.countP_replicate
    unfold ratePct
    rw [none_, Nat.cast_zero, zero_div, id, id, zero_mul]
  have quiet : ¬(Reporter.init 300 (.fin 1)).Alarming id (List.replicate 10000 ⟨0, true⟩) := by
    have atMost : Number.le (.fin 0) (Reporter.init 300 (.fin 1)).authFailureThresholdPct = true := by
      simp [Reporter.init]
    rintro ⟨_, exceeds⟩
    rw [rate] at exceeds
    exact exceeds atMost
  have alarming : (Reporter.init 300 (.fin 1)).Alarming id (flood.map AuthCall.event) := by
    have samples : (flood.map AuthCall.event).length = 11000 := by
      rw [flood_events, List.length_append, List.length_replicate, List.length_replicate]
    have failures : failuresIn (flood.map AuthCall.event) = 1000 := by
      unfold failuresIn
      rw [flood_events, List.countP_append, List.countP_replicate, List.countP_replicate]
      rfl
    unfold Reporter.Alarming ratePct
    rw [samples, failures]
    norm_num [Reporter.init]
  have answer : (flood.foldl Reporter.recordAuthEvent
      (.init 300 (.fin 1))).autoCheckAuthFailureRate id epoch = .ok none := by
    rw [check_after_calls id start flood_ordered, flood_since, flood_kept, verdict_quiet quiet]
  refine ⟨fun sees => ?_, by rw [flood_window]; exact alarming, answer⟩
  unfold SeesWholeWindow at sees
  rw [answer, flood_window, verdict_alarming alarming] at sees
  cases Except.ok.inj sees

end HorizonRic.Nis2
