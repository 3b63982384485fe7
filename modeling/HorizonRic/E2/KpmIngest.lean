import HorizonRic.E2.KpmRisk
import HorizonRic.E2.KpmTimestamp
import HorizonRic.Io.Schemas

/-!
`KpmMeasurementBridge.from_flexric_kpm_json` of `e2/kpm_bridge.py`: a foreign JSON
record becomes a telemetry event, or is refused with `KpmBridgeError`. Overflows and
what the error message itself cannot print escape as other exceptions, one of them
after the sequence number was taken.
-/
namespace HorizonRic.KpmBridge

open Py Io

def kpmBridgeError : PyErr := .other "KpmBridgeError"

/-- A date as `datetime.fromisoformat` gives it: the time on its clock, and how many microseconds
    that is ahead of UTC, none for a naive date. -/
structure IsoDate where
  clock : DateTime
  utcoffset : Option ℤ := none

/-- What the bridge uses of Python: `fromisoformat`, none for a `ValueError`, the text of a UTC
    date, and which values nest too deep for `repr`. -/
structure IngestEnv where
  py : Interpreter
  rounding : Rounding
  fromisoformat : String → Option IsoDate
  isoformat : DateTime → String
  deep : Value → Bool := fun _ => false

structure KpmMeasurementBridge where
  sourceId : String := "flexric-kpm"
  e2smVersion : String := "v3.00"
  sequence : ℕ := 0

/-- What a call draws: a UUID, and the time now. -/
structure Draw where
  eventId : String
  now : DateTime

/-- A record that was read, up to `_build_event`. A date is its clock and its offset. -/
structure KpmReport where
  measurements : Dict Number
  tsUtc : Option (DateTime × ℤ)
  granularityPeriodMs : Option Int
  ueId : Option (Dict Value)
  senderName : Value

def riskMappingId : String := "kpm_risk_v1"

/-- `datetime.fromtimestamp(seconds, tz=timezone.utc)`, where `seconds` need not be finite. -/
def fromTimestampFloat : Number → Except PyErr DateTime
  | .nan => .error .valueError
  | .inf _ => .error .overflowError
  | .fin seconds => fromTimestamp seconds

/-- `v.astimezone(timezone.utc)`. -/
def astimezoneUtc (clock : DateTime) (utcoffset : ℤ) : Except PyErr DateTime :=
  if low : yearOne ≤ clock.micros - utcoffset then
    if high : clock.micros - utcoffset < year10000 then .ok ⟨_, low, high⟩
    else .error .overflowError
  else .error .overflowError

section
variable (env : IngestEnv)

/-- `{value!r}` in a message. -/
def shown (v : Value) : Except PyErr String :=
  if env.deep v then .error (.other "RecursionError") else v.repr env.py

/-- `float(value)`; a TypeError or ValueError becomes a `KpmBridgeError` that shows the value. -/
def measure (item : String × Value) : Except PyErr (String × Number) :=
  match item.2.toFloat env.py with
  | .ok x => .ok (item.1, x)
  | .error e =>
    if e = .typeError ∨ e = .valueError then do
      let _ ← shown env item.2
      .error kpmBridgeError
    else .error e

/-- The measurements of a record, if it carries any. -/
def rawMeasurements (record : Dict Value) : Option (Dict Value) :=
  let raw : Value := match Dict.getD record "measurements" .null with
    | .null => .dict (record.filter fun item => item.1.toList.contains '.')
    | v => v
  match raw with
  | .dict [] => none
  | .dict items => some items
  | _ => none

/-- `record.get("ts_utc") or record.get("timestamp")`. -/
def rawTimestamp (record : Dict Value) : Value :=
  let tsUtc := Dict.getD record "ts_utc" .null
  if tsUtc.truthy then tsUtc else Dict.getD record "timestamp" .null

def epoch (v : Value) : Except PyErr (Option (DateTime × ℤ)) := do
  let seconds ← v.toFloat env.py
  let time ← fromTimestampFloat seconds
  .ok (some (time, 0))

def readTimestamp : Value → Except PyErr (Option (DateTime × ℤ))
  | .bool b => epoch env (.bool b)
  | .int n => epoch env (.int n)
  | .float x => epoch env (.float x)
  | .str s =>
    match env.fromisoformat s with
    | none => .error kpmBridgeError
    | some date => .ok (some (date.clock, date.utcoffset.getD 0))
  | _ => .ok none

/-- `record.get("granularity_period_ms", record.get("granulPeriod"))`. -/
def rawGranularity (record : Dict Value) : Value :=
  Dict.getD record "granularity_period_ms" (Dict.getD record "granulPeriod" .null)

def readGranularity : Value → Except PyErr (Option Int)
  | .null => .ok none
  | v => do
    let n ← v.toInt env.py
    .ok (some n)

/-- What is done before `_build_event`. -/
def readReport (record : Dict Value) : Except PyErr KpmReport :=
  match rawMeasurements record with
  | none => .error kpmBridgeError
  | some raw => do
    let measurements ← raw.mapM (measure env)
    let tsUtc ← readTimestamp env (rawTimestamp record)
    let granularityPeriodMs ← readGranularity env (rawGranularity record)
    .ok ⟨measurements, tsUtc, granularityPeriodMs,
      (match Dict.getD record "ue_id" .null with | .dict d => some d | _ => none),
      Dict.getD record "sender_name" .null⟩

def floats (items : Dict Number) : Value := .dict (items.map fun item => (item.1, .float item.2))

/-- The payload of an event. -/
def payload (report : KpmReport) : Dict Value :=
  let sla := deriveSlaRisk env.rounding report.measurements
  [("measurements", floats report.measurements), ("sla_risk_30s", .float sla.risk),
    ("risk", .dict [("mapping", .str riskMappingId),
      ("metric", match sla.metric with | some metric => .str metric | none => .null),
      ("contributions", floats sla.contributions)])] ++
  (match report.granularityPeriodMs with
    | some n => [("granularity_period_ms", .int n)]
    | none => []) ++
  (match report.ueId with | some d => [("ue_id", .dict d)] | none => []) ++
  match report.senderName with | .null => [] | v => [("sender_name", v)]

def KpmMeasurementBridge.nextSequence (bridge : KpmMeasurementBridge) : KpmMeasurementBridge :=
  { bridge with sequence := bridge.sequence + 1 }

/-- `_build_event`: the sequence number is taken before the event is validated. -/
def buildEvent (bridge : KpmMeasurementBridge) (draw : Draw) (report : KpmReport)
    (ingest : String) : Except PyErr TelemetryEvent × KpmMeasurementBridge :=
  let date := report.tsUtc.getD (draw.now, 0)
  let next := bridge.nextSequence
  match astimezoneUtc date.1 date.2 with
  | .error e => (.error e, next)
  | .ok utc =>
    (.ok
      { eventId := draw.eventId
        modality := .kpm5g
        sourceId := bridge.sourceId
        tsUtc := env.isoformat utc
        sequence := some next.sequence
        payload := payload env report
        tags := [("e2sm", "kpm-" ++ bridge.e2smVersion), ("ingest", ingest)] }, next)

def fromFlexricKpmJson (bridge : KpmMeasurementBridge) (draw : Draw) (record : Dict Value) :
    Except PyErr TelemetryEvent × KpmMeasurementBridge :=
  match readReport env record with
  | .error e => (.error e, bridge)
  | .ok report => buildEvent env bridge draw report "flexric_json"

end

/-! When a record is read or refused, and nothing else. -/

section
variable (env : IngestEnv)

/-- `float(value)` gives a number. -/
def Converts (v : Value) : Prop := ∃ x, v.toFloat env.py = .ok x

/-- No integer (one that `float` refuses is too large for it), and a value that `repr` can show. -/
def Refusable (v : Value) : Prop :=
  (∀ n, v ≠ .int n) ∧ env.deep v = false ∧ v.digitsOk = true

/-- The first value that `float` refuses. -/
def FirstRefused (raw : Dict Value) (v : Value) : Prop :=
  ∃ before name after, raw = before ++ (name, v) :: after ∧
    (∀ item ∈ before, Converts env item.2) ∧ ¬Converts env v

/-- Seconds within the years 1 to 9999. -/
def InYears (seconds : ℚ) : Prop :=
  yearOne ≤ roundHalfEven (seconds * 10 ^ 6) ∧ roundHalfEven (seconds * 10 ^ 6) < year10000

/-- A time on a clock that UTC has within the years 1 to 9999. -/
def UtcInYears (clock : DateTime) (utcoffset : ℤ) : Prop :=
  yearOne ≤ clock.micros - utcoffset ∧ clock.micros - utcoffset < year10000

def TimestampFits : Value → Prop
  | .int n => InYears n
  | .float x => ∃ q, x = .fin q ∧ InYears q
  | .str s => ∀ date, env.fromisoformat s = some date →
      UtcInYears date.clock (date.utcoffset.getD 0)
  | _ => True

/-- `int(value)` gives an integer, or there is no value. -/
def GranularityConverts (v : Value) : Prop := v = .null ∨ ∃ n, v.toInt env.py = .ok n

/-- The record is read, or refused in the bridge's own way: by its measurements, or by the text of
    its timestamp, before anything else can go wrong. -/
def Ingestible (record : Dict Value) : Prop :=
  ∀ raw, rawMeasurements record = some raw →
    (∀ v, FirstRefused env raw v → Refusable env v) ∧
      ((∀ item ∈ raw, Converts env item.2) →
        TimestampFits env (rawTimestamp record) ∧
          ((∀ s, rawTimestamp record = .str s → env.fromisoformat s ≠ none) →
            GranularityConverts env (rawGranularity record)))

end

/-! Measurements. -/

section
variable {env : IngestEnv}

theorem shown_isOk_iff (v : Value) :
    (∃ text, shown env v = .ok text) ↔ env.deep v = false ∧ v.digitsOk = true := by
  unfold shown
  cases env.deep v with
  | true => simp
  | false => simpa using repr_isOk_iff env.py v

theorem shown_ne_kpm (v : Value) : shown env v ≠ .error kpmBridgeError := by
  unfold shown Value.repr
  split
  · intro same
    exact absurd (Except.error.inj same) (by decide)
  · split
    · intro same
      cases same
    · intro same
      cases same

/-- What `float` refuses with a TypeError or ValueError is refused by name if it can be shown. -/
theorem shown_refused (v : Value) (notInt : ∀ n, v ≠ .int n) :
    (do let _ ← shown env v; (.error kpmBridgeError : Except PyErr (String × Number))) =
      .error kpmBridgeError ↔ Refusable env v := by
  unfold Refusable
  rw [← shown_isOk_iff, and_iff_right notInt]
  cases text : shown env v with
  | ok s => exact iff_of_true rfl ⟨s, rfl⟩
  | error e =>
    refine iff_of_false (fun same => ?_) (by simp)
    have raised : Except.error e = (.error kpmBridgeError : Except PyErr (String × Number)) := same
    exact shown_ne_kpm v (text.trans (congrArg Except.error (Except.error.inj raised)))

theorem measure_converts {item : String × Value} (converts : Converts env item.2) :
    ∃ x, measure env item = .ok x := by
  obtain ⟨x, float⟩ := converts
  exact ⟨(item.1, x), by rw [measure, float]⟩

theorem measure_refused {item : String × Value} (refused : ¬Converts env item.2) :
    ∃ e, measure env item = .error e ∧ (e = kpmBridgeError ↔ Refusable env item.2) := by
  obtain ⟨name, v⟩ := item
  have shownCase : ∀ e, v.toFloat env.py = .error e → e = .typeError ∨ e = .valueError →
      (∀ n, v ≠ .int n) → ∃ e, measure env (name, v) = .error e ∧
        (e = kpmBridgeError ↔ Refusable env v) := by
    intro e raised kind notInt
    have refusal := @shown_refused env v notInt
    rw [measure, raised]
    simp only [kind, if_true]
    cases text : shown env v with
    | ok s =>
      rw [text] at refusal
      exact ⟨kpmBridgeError, rfl, iff_of_true rfl (refusal.mp rfl)⟩
    | error e' =>
      rw [text] at refusal
      refine ⟨e', rfl, ?_⟩
      rw [← refusal]
      exact ⟨fun same => congrArg Except.error same, fun same => Except.error.inj same⟩
  cases float : v.toFloat env.py with
  | ok x => exact absurd ⟨x, float⟩ refused
  | error e =>
    cases v with
    | bool b => cases float
    | float x => cases float
    | int n =>
      rw [Value.toFloat] at float
      split at float
      · cases float
      · cases float
        refine ⟨.overflowError, ?_, ?_⟩
        · rename_i large
          rw [measure, Value.toFloat, if_neg large]
          rfl
        · refine iff_of_false (fun same => by cases same) ?_
          exact fun refusable => refusable.1 n rfl
    | str s =>
      have kind : e = .valueError := by
        rw [Value.toFloat] at float
        split at float
        · cases float
        · exact (Except.error.inj float).symm
      exact shownCase e float (Or.inr kind) (by simp)
    | null | list _ | dict _ =>
      cases float
      exact shownCase .typeError rfl (Or.inl rfl) (by simp)

/-- The measurements are read, or the first value that is refused decides how they are. -/
theorem measurements_cases (raw : Dict Value) :
    ((∀ item ∈ raw, Converts env item.2) ∧ ∃ measured, raw.mapM (measure env) = .ok measured) ∨
      ∃ v e, FirstRefused env raw v ∧ raw.mapM (measure env) = .error e ∧
        (e = kpmBridgeError ↔ Refusable env v) := by
  induction raw with
  | nil => exact Or.inl ⟨by simp, [], rfl⟩
  | cons item raw ih =>
    by_cases converts : Converts env item.2
    · obtain ⟨x, measured⟩ := measure_converts converts
      rw [List.mapM_cons, measured, ok_bind]
      rcases ih with ⟨all, later, done⟩ | ⟨v, e, ⟨before, name, after, parts, earlier, refused⟩,
        raised, kind⟩
      · refine Or.inl ⟨List.forall_mem_cons.mpr ⟨converts, all⟩, x :: later, ?_⟩
        rw [done]
        rfl
      · refine Or.inr ⟨v, e, ⟨item :: before, name, after, by rw [parts, List.cons_append],
          List.forall_mem_cons.mpr ⟨converts, earlier⟩, refused⟩, ?_, kind⟩
        rw [raised]
        rfl
    · obtain ⟨e, raised, kind⟩ := measure_refused converts
      refine Or.inr ⟨item.2, e, ⟨[], item.1, raw, rfl, by simp, converts⟩, ?_, kind⟩
      rw [List.mapM_cons, raised]
      rfl

theorem firstRefused_unique {raw : Dict Value} {v w : Value} (one : FirstRefused env raw v)
    (other : FirstRefused env raw w) : v = w := by
  obtain ⟨before, name, after, parts, earlier, refused⟩ := one
  obtain ⟨before', name', after', parts', earlier', refused'⟩ := other
  induction before generalizing raw before' with
  | nil =>
    cases before' with
    | nil =>
      rw [parts] at parts'
      cases parts'
      rfl
    | cons item before' =>
      rw [parts] at parts'
      cases parts'
      exact absurd (earlier' _ List.mem_cons_self) refused
  | cons item before ih =>
    cases before' with
    | nil =>
      rw [parts] at parts'
      cases parts'
      exact absurd (earlier _ List.mem_cons_self) refused'
    | cons item' before' =>
      rw [parts] at parts'
      obtain ⟨same, rest⟩ := List.cons.inj parts'
      exact ih rfl (fun x member => earlier x (List.mem_cons_of_mem _ member)) before' rest
        fun x member => earlier' x (List.mem_cons_of_mem _ member)

/-! Timestamp and granularity. -/

/-- A time is made where its years are those of a date. -/
theorem madeTime_iff (e : PyErr) (micros : ℤ) :
    (∃ time : DateTime, (if low : yearOne ≤ micros then
        if high : micros < year10000 then .ok ⟨micros, low, high⟩ else .error e
      else .error e : Except PyErr DateTime) = .ok time) ↔
      yearOne ≤ micros ∧ micros < year10000 := by
  split
  · rename_i low
    split
    · rename_i high
      simp [low, high]
    · rename_i high
      simp [high]
  · rename_i low
    simp [low]

theorem fromTimestamp_iff (seconds : ℚ) :
    (∃ time, fromTimestamp seconds = .ok time) ↔ InYears seconds :=
  madeTime_iff .valueError (roundHalfEven (seconds * 10 ^ 6))

theorem astimezoneUtc_iff (clock : DateTime) (utcoffset : ℤ) :
    (∃ time, astimezoneUtc clock utcoffset = .ok time) ↔ UtcInYears clock utcoffset :=
  madeTime_iff .overflowError (clock.micros - utcoffset)

theorem astimezoneUtc_utc (clock : DateTime) : astimezoneUtc clock 0 = .ok clock := by
  have low : yearOne ≤ clock.micros - 0 := by
    rw [sub_zero]
    exact clock.fromYearOne
  have high : clock.micros - 0 < year10000 := by
    rw [sub_zero]
    exact clock.beforeYear10000
  rw [astimezoneUtc, dif_pos low, dif_pos high]
  exact congrArg Except.ok (DateTime.ext (sub_zero _))

/-- An integer within the years is no overflow of `float`. -/
theorem small_of_inYears {n : ℤ} (fits : InYears n) : n.natAbs < floatOverflow := by
  obtain ⟨low, high⟩ := fits
  have scaled : (n : ℚ) * 10 ^ 6 = ((n * 10 ^ 6 : ℤ) : ℚ) := by push_cast; ring
  rw [scaled, roundHalfEven_intCast] at low high
  have bound : n.natAbs < 10 ^ 12 := by
    unfold yearOne at low
    unfold year10000 at high
    omega
  exact lt_floatOverflow bound

/-- What `fromtimestamp` raises is never the bridge's own error. -/
theorem fromTimestampFloat_iff (x : Number) :
    (∃ time, fromTimestampFloat x = .ok time) ↔ ∃ q, x = .fin q ∧ InYears q := by
  cases x with
  | nan => simp [fromTimestampFloat]
  | inf negative => simp [fromTimestampFloat]
  | fin q => simpa [fromTimestampFloat] using fromTimestamp_iff q

theorem fromTimestampFloat_ne_kpm (x : Number) :
    fromTimestampFloat x ≠ .error kpmBridgeError := by
  cases x with
  | nan => exact fun same => by cases same
  | inf negative => exact fun same => by cases same
  | fin q =>
    unfold fromTimestampFloat fromTimestamp
    dsimp only
    split
    · split
      · exact fun same => by cases same
      · exact fun same => by cases same
    · exact fun same => by cases same

/-- What `_build_event` validates for a timestamp that was read. -/
def DateFits (ts : Option (DateTime × ℤ)) : Prop :=
  ∀ clock utcoffset, ts = some (clock, utcoffset) → UtcInYears clock utcoffset

/-- The timestamp is read, or refused by its text, or does not fit. -/
structure TimestampRead (v : Value) (ts : Option (DateTime × ℤ)) : Prop where
  read : readTimestamp env v = .ok ts
  parsed : ∀ s, v = .str s → env.fromisoformat s ≠ none
  fits : DateFits ts ↔ TimestampFits env v

theorem epoch_cases {v : Value} {x : Number} (float : v.toFloat env.py = .ok x) :
    (∃ time, epoch env v = .ok (some (time, 0)) ∧ ∃ q, x = .fin q ∧ InYears q) ∨
      ∃ e, epoch env v = .error e ∧ e ≠ kpmBridgeError ∧ ¬∃ q, x = .fin q ∧ InYears q := by
  rw [← fromTimestampFloat_iff, epoch, float, ok_bind]
  cases converted : fromTimestampFloat x with
  | ok time => exact Or.inl ⟨time, rfl, time, rfl⟩
  | error e =>
    refine Or.inr ⟨e, rfl, ?_, by simp⟩
    rintro rfl
    exact fromTimestampFloat_ne_kpm x converted

theorem utcInYears_utc (clock : DateTime) : UtcInYears clock 0 :=
  (astimezoneUtc_iff clock 0).mp ⟨clock, astimezoneUtc_utc clock⟩

theorem dateFits_epoch (time : DateTime) : DateFits (some (time, 0)) := by
  intro clock utcoffset same
  cases same
  exact utcInYears_utc time

/-- A number is read as seconds. -/
theorem readNumber_cases {v : Value} {x : Number} (number : readTimestamp env v = epoch env v)
    (float : v.toFloat env.py = .ok x) (fits : TimestampFits env v ↔ ∃ q, x = .fin q ∧ InYears q)
    (notText : ∀ s, v ≠ .str s) :
    (∃ ts, @TimestampRead env v ts) ∨
      ∃ e, readTimestamp env v = .error e ∧ e ≠ kpmBridgeError ∧ ¬TimestampFits env v := by
  rw [number, fits]
  rcases epoch_cases float with ⟨time, read, inYears⟩ | ⟨e, raised, other, outside⟩
  · refine Or.inl ⟨some (time, 0), number.trans read, fun s same => absurd same (notText s), ?_⟩
    rw [fits]
    exact iff_of_true (dateFits_epoch time) inYears
  · exact Or.inr ⟨e, raised, other, outside⟩

theorem readTimestamp_cases (v : Value) :
    (∃ ts, @TimestampRead env v ts) ∨
      (∃ s, v = .str s ∧ env.fromisoformat s = none ∧
        readTimestamp env v = .error kpmBridgeError) ∨
      ((∀ s, v ≠ .str s) ∧
        ∃ e, readTimestamp env v = .error e ∧ e ≠ kpmBridgeError ∧ ¬TimestampFits env v) := by
  cases v with
  | bool b =>
    have years : InYears (if b then 1 else 0) := by
      cases b <;> norm_num [InYears, yearOne, year10000, roundHalfEven]
    have fits : TimestampFits env (.bool b) ↔
        ∃ q : ℚ, Number.fin (if b then 1 else 0) = .fin q ∧ InYears q :=
      iff_of_true trivial ⟨_, rfl, years⟩
    rcases readNumber_cases rfl rfl fits (by simp) with read | raised
    · exact Or.inl read
    · exact Or.inr (Or.inr ⟨by simp, raised⟩)
  | int n =>
    by_cases small : n.natAbs < floatOverflow
    · have fits : TimestampFits env (.int n) ↔ ∃ q : ℚ, Number.fin n = .fin q ∧ InYears q := by
        simp [TimestampFits]
      have float : (Value.int n).toFloat env.py = .ok (.fin n) := by
        rw [Value.toFloat, if_pos small]
      rcases readNumber_cases rfl float fits (by simp) with read | raised
      · exact Or.inl read
      · exact Or.inr (Or.inr ⟨by simp, raised⟩)
    · refine Or.inr (Or.inr ⟨by simp, .overflowError, ?_, fun same => (by cases same), ?_⟩)
      · rw [readTimestamp, epoch, Value.toFloat, if_neg small]
        rfl
      · exact fun years => small (small_of_inYears years)
  | float x =>
    rcases readNumber_cases (v := .float x) rfl rfl Iff.rfl (by simp) with read | raised
    · exact Or.inl read
    · exact Or.inr (Or.inr ⟨by simp, raised⟩)
  | str s =>
    cases parsed : env.fromisoformat s with
    | none => exact Or.inr (Or.inl ⟨s, rfl, parsed, by rw [readTimestamp, parsed]⟩)
    | some date =>
      refine Or.inl ⟨some (date.clock, date.utcoffset.getD 0), ?_, ?_, ?_⟩
      · rw [readTimestamp, parsed]
      · intro s' same
        cases same
        rw [parsed]
        simp
      · constructor
        · intro fits date' same
          rw [parsed] at same
          cases same
          exact fits _ _ rfl
        · intro fits clock utcoffset same
          cases same
          exact fits date parsed
  | null | list _ | dict _ =>
    refine Or.inl ⟨none, rfl, by simp, iff_of_true ?_ trivial⟩
    intro clock utcoffset same
    cases same

theorem readGranularity_cases (v : Value) :
    (GranularityConverts env v ∧ ∃ n, readGranularity env v = .ok n) ∨
      (¬GranularityConverts env v ∧
        ∃ e, readGranularity env v = .error e ∧ e ≠ kpmBridgeError) := by
  by_cases missing : v = .null
  · rw [missing]
    exact Or.inl ⟨Or.inl rfl, none, rfl⟩
  · have reading : readGranularity env v = (do let n ← v.toInt env.py; .ok (some n)) := by
      cases v <;> first | exact absurd rfl missing | rfl
    rw [reading]
    cases converted : v.toInt env.py with
    | ok n => exact Or.inl ⟨Or.inr ⟨n, converted⟩, some n, rfl⟩
    | error e =>
      refine Or.inr ⟨?_, e, rfl, ?_⟩
      · rintro (same | ⟨n, other⟩)
        · exact missing same
        · rw [converted] at other
          cases other
      · rintro rfl
        have data := toInt_raises env.py v _ converted
        cases data

/-! One call. -/

/-- How a call ended, and the bridge's counter around it. -/
structure Outcome where
  answer : Except PyErr TelemetryEvent
  before : ℕ
  after : ℕ

/-- An event, or a `KpmBridgeError` with the counter as it was. -/
def Outcome.OwnWay (outcome : Outcome) : Prop :=
  match outcome.answer with
  | .ok _ => True
  | .error e => e = kpmBridgeError ∧ outcome.after = outcome.before

/-- The error that escapes, if the record is not read. -/
theorem readReport_cases (record : Dict Value) :
    (∃ report, readReport env record = .ok report ∧
        (Ingestible env record ↔ DateFits report.tsUtc)) ∨
      ∃ e, readReport env record = .error e ∧ (e = kpmBridgeError ↔ Ingestible env record) := by
  unfold readReport Ingestible
  cases carried : rawMeasurements record with
  | none => exact Or.inr ⟨kpmBridgeError, rfl, by simp⟩
  | some raw =>
    simp only [Option.some.injEq, forall_eq']
    rcases @measurements_cases env raw with ⟨all, measured, done⟩ |
      ⟨v, e, first, raised, kind⟩
    · have noneRefused : ∀ v, FirstRefused env raw v → Refusable env v := by
        rintro v ⟨before, name, after, rfl, _, refused⟩
        exact absurd (all (name, v) (by simp)) refused
      rw [done, ok_bind, and_iff_right noneRefused, imp_iff_right all]
      rcases @readTimestamp_cases env (rawTimestamp record) with ⟨ts, read, parsed, fits⟩ |
        ⟨s, isText, unparsed, raised⟩ | ⟨_, e, raised, other, unfit⟩
      · rw [read, ok_bind, imp_iff_right parsed, ← fits]
        rcases @readGranularity_cases env (rawGranularity record) with
          ⟨converts, n, granularity⟩ | ⟨refused, e, raised, other⟩
        · refine Or.inl ⟨_, by rw [granularity]; rfl, and_iff_left converts⟩
        · refine Or.inr ⟨e, by rw [raised]; rfl, iff_of_false other fun both => refused both.2⟩
      · refine Or.inr ⟨kpmBridgeError, by rw [raised]; rfl, iff_of_true rfl ⟨?_, fun parsed => ?_⟩⟩
        · rw [isText]
          intro date same
          rw [unparsed] at same
          cases same
        · exact absurd unparsed (parsed s isText)
      · exact Or.inr ⟨e, by rw [raised]; rfl, iff_of_false other fun both => unfit both.1⟩
    · refine Or.inr ⟨e, by rw [raised]; rfl, ?_⟩
      have notAll : ¬∀ item ∈ raw, Converts env item.2 := by
        obtain ⟨before, name, after, rfl, _, refused⟩ := first
        exact fun all => refused (all (name, v) (by simp))
      simp only [notAll, false_imp_iff, and_true]
      rw [kind]
      constructor
      · intro refusable w other
        rw [← firstRefused_unique first other]
        exact refusable
      · exact fun each => each v first

/-- The outcome of a call of `from_flexric_kpm_json`. -/
def outcome (env : IngestEnv) (bridge : KpmMeasurementBridge) (draw : Draw) (record : Dict Value) :
    Outcome :=
  let result := fromFlexricKpmJson env bridge draw record
  ⟨result.1, bridge.sequence, result.2.sequence⟩

theorem ownWay_iff (bridge : KpmMeasurementBridge) (draw : Draw) (record : Dict Value) :
    (outcome env bridge draw record).OwnWay ↔ Ingestible env record := by
  unfold outcome fromFlexricKpmJson Outcome.OwnWay
  rcases @readReport_cases env record with ⟨report, read, fits⟩ | ⟨e, raised, kind⟩
  · rw [read, fits]
    have dated : DateFits report.tsUtc ↔ UtcInYears (report.tsUtc.getD (draw.now, 0)).1
        (report.tsUtc.getD (draw.now, 0)).2 := by
      cases report.tsUtc with
      | none => exact iff_of_true (fun _ _ same => by cases same) (utcInYears_utc draw.now)
      | some date =>
        refine ⟨fun fits => fits date.1 date.2 rfl, fun years clock utcoffset same => ?_⟩
        cases same
        exact years
    rw [dated, ← astimezoneUtc_iff]
    unfold buildEvent
    dsimp only
    cases astimezoneUtc (report.tsUtc.getD (draw.now, 0)).1
        (report.tsUtc.getD (draw.now, 0)).2 with
    | ok utc => simp
    | error e => simp [KpmMeasurementBridge.nextSequence]
  · rw [raised, ← kind]
    simp

/-- A returned event takes the next number. -/
theorem returned_sequence {bridge bridge' : KpmMeasurementBridge} {draw : Draw}
    {record : Dict Value} {event : TelemetryEvent}
    (returned : fromFlexricKpmJson env bridge draw record = (.ok event, bridge')) :
    bridge'.sequence = bridge.sequence + 1 ∧
      event.sequence = some ((bridge.sequence + 1 : ℕ) : ℤ) := by
  unfold fromFlexricKpmJson at returned
  split at returned
  · cases returned
  · unfold buildEvent at returned
    dsimp only at returned
    split at returned
    · cases returned
    · cases returned
      exact ⟨rfl, rfl⟩

end

/-! Runs of calls. -/

structure Call where
  draw : Draw
  record : Dict Value

/-- The outcomes of the calls, one after another. -/
def outcomes (env : IngestEnv) : KpmMeasurementBridge → List Call → List Outcome
  | _, [] => []
  | bridge, call :: calls =>
    outcome env bridge call.draw call.record ::
      outcomes env (fromFlexricKpmJson env bridge call.draw call.record).2 calls

def returnedEvents (list : List Outcome) : List TelemetryEvent :=
  list.filterMap fun outcome =>
    match outcome.answer with
    | .ok event => some event
    | .error _ => none

/-- The numbers of the events, from `first` on without a gap. -/
def Numbered (first : ℕ) (events : List TelemetryEvent) : Prop :=
  events.map TelemetryEvent.sequence =
    (List.range' first events.length).map fun n : ℕ => some (n : ℤ)

section
variable {env : IngestEnv}

theorem ownWays_iff (bridge : KpmMeasurementBridge) (calls : List Call) :
    (∀ outcome ∈ outcomes env bridge calls, outcome.OwnWay) ↔
      ∀ call ∈ calls, Ingestible env call.record := by
  induction calls generalizing bridge with
  | nil => simp [outcomes]
  | cons call calls ih =>
    rw [outcomes, List.forall_mem_cons, List.forall_mem_cons, ownWay_iff, ih]

theorem returned_numbered (bridge : KpmMeasurementBridge) (calls : List Call)
    (ownWays : ∀ outcome ∈ outcomes env bridge calls, outcome.OwnWay) :
    Numbered (bridge.sequence + 1) (returnedEvents (outcomes env bridge calls)) := by
  induction calls generalizing bridge with
  | nil => rfl
  | cons call calls ih =>
    rw [outcomes] at ownWays ⊢
    obtain ⟨own, later⟩ := List.forall_mem_cons.mp ownWays
    have rest := ih _ later
    unfold outcome at own ⊢
    cases called : fromFlexricKpmJson env bridge call.draw call.record with
    | mk answer bridge' =>
      rw [called] at own rest
      cases answer with
      | ok event =>
        obtain ⟨moved, number⟩ := returned_sequence called
        rw [moved] at rest
        unfold Numbered at rest ⊢
        simp only [returnedEvents, List.filterMap_cons, List.map_cons, List.length_cons,
          List.range'_succ] at rest ⊢
        rw [rest, number]
      | error e =>
        have same : bridge'.sequence = bridge.sequence := own.2
        rw [same] at rest
        exact rest

end

/-- Over any run of calls on a new bridge: every call returns an event or raises `KpmBridgeError`
    with the counter unchanged, and the events are numbered from 1 without a gap, exactly if every
    record is ingestible. -/
theorem ingest_iff (env : IngestEnv) (sourceId e2smVersion : String) (calls : List Call) :
    ((∀ outcome ∈ outcomes env ⟨sourceId, e2smVersion, 0⟩ calls, outcome.OwnWay) ∧
        Numbered 1 (returnedEvents (outcomes env ⟨sourceId, e2smVersion, 0⟩ calls))) ↔
      ∀ call ∈ calls, Ingestible env call.record := by
  rw [← @ownWays_iff env ⟨sourceId, e2smVersion, 0⟩]
  refine and_iff_left_of_imp fun ownWays => ?_
  exact returned_numbered ⟨sourceId, e2smVersion, 0⟩ calls ownWays

/-! The first midnight of the calendar, fourteen hours ahead of UTC. -/

def firstMidnight : DateTime := ⟨yearOne, le_rfl, by decide⟩

def midnightEnv : IngestEnv where
  py := Evidence.sampleInterpreter
  rounding := .exact
  fromisoformat s :=
    if s = "0001-01-01T00:00:00+14:00" then some ⟨firstMidnight, some 50400000000⟩ else none
  isoformat _ := ""

def midnightRecord : Dict Value :=
  [("RRU.PrbTotDl", .bool true), ("ts_utc", .str "0001-01-01T00:00:00+14:00")]

def plainRecord : Dict Value := [("RRU.PrbTotDl", .bool true)]

def sampleDraw : Draw := ⟨"e-1", firstMidnight⟩

/-- The call raises OverflowError and has taken number 1, and the first event has number 2. -/
theorem midnight_skips_one :
    (outcomes midnightEnv {} [⟨sampleDraw, midnightRecord⟩, ⟨sampleDraw, plainRecord⟩]).map
        (fun outcome => outcome.after) = [1, 2] ∧
      (fromFlexricKpmJson midnightEnv {} sampleDraw midnightRecord).1 = .error .overflowError ∧
      ¬Numbered 1 (returnedEvents
        (outcomes midnightEnv {} [⟨sampleDraw, midnightRecord⟩, ⟨sampleDraw, plainRecord⟩])) := by
  refine ⟨?_, ?_, ?_⟩
  · rfl
  · rfl
  · intro numbered
    have numbers : (returnedEvents (outcomes midnightEnv {}
        [⟨sampleDraw, midnightRecord⟩, ⟨sampleDraw, plainRecord⟩])).map TelemetryEvent.sequence =
        [some 2] := rfl
    unfold Numbered at numbered
    rw [numbers] at numbered
    cases numbered

end HorizonRic.KpmBridge
