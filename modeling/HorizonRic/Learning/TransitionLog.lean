import HorizonRic.Evidence.RepeatedAppends
import HorizonRic.Learning.RecordedNumbers

/-!
The transition log of `learning/shield_env.py`. `load_transitions` verifies a JSONL file and
unpacks the records that steps wrote; a run of steps is read back one transition for each
step that returned, in their order.
-/
namespace HorizonRic.Learning

open Py Json ShieldedSpectrumEnv
open Evidence hiding readFloat

structure Transition where
  decisionId : String
  proposedFrequencyHz : Number
  proposedTxPowerDbm : Number
  executedFrequencyHz : Number
  executedTxPowerDbm : Number
  reward : Number
  projected : Bool
  guardRefused : Bool
  deriving DecidableEq

def evidenceIntegrityError : PyErr := .other "EvidenceIntegrityError"

/-- `bool(action[key])`. -/
def readFlag (action : Dict Value) (key : String) : Except PyErr Bool :=
  match Dict.get? key action with
  | some v => .ok v.truthy
  | none => .error .keyError

/-- The transition of a record; none for a record that is not one of a step. -/
def recordTransition (py : Interpreter) (record : DecisionRecord) :
    Except PyErr (Option Transition) :=
  let action := record.chosenAction
  if Dict.has action "requested_frequency_hz" && Dict.has action "reward" then do
    let proposedFrequency ← readFloat py action "requested_frequency_hz"
    let proposedPower ← readFloat py action "requested_tx_power_dBm"
    let executedFrequency ← readFloat py action "safe_frequency_hz"
    let executedPower ← readFloat py action "safe_tx_power_dBm"
    let reward ← readFloat py action "reward"
    let projected ← readFlag action "projected"
    let guardRefused ← readFlag action "guard_refused"
    .ok (some ⟨record.decisionId, proposedFrequency, proposedPower, executedFrequency,
      executedPower, reward, projected, guardRefused⟩)
  else .ok none

/-- The loop over the store; an exception ends it. -/
def collectTransitions (py : Interpreter) : List Outcome → Except PyErr (List Transition)
  | [] => .ok []
  | .error e :: _ => .error e
  | .ok (record, _) :: rest => do
    let head ← recordTransition py record
    let tail ← collectTransitions py rest
    .ok (head.toList ++ tail)

/-- `load_transitions` of a file, inside the given scope. -/
def loadTransitions (platform : Platform) (scope : Option String) (content : List Char) :
    Except PyErr (List Transition) := do
  let store := EvidenceStore.jsonl content
  let broken ← store.verify platform scope
  if broken ≠ -1 then .error evidenceIntegrityError
  else collectTransitions platform.py (store.iter platform scope)

/-- What the log should say of a step. -/
def StepResult.transition (result : StepResult) (args : StepArgs) : Transition :=
  ⟨args.decisionId, result.proposed.frequencyHz, result.proposed.txPowerDbm,
    result.executed.frequencyHz, result.executed.txPowerDbm, result.reward, result.projected,
    result.guardRefused⟩

structure StepCall where
  proposed : SpectrumAction
  args : StepArgs

/-- Calls of `step` with one file: those that returned, and the file after all of them. A step
    that raises writes nothing. -/
def ShieldedSpectrumEnv.runSteps (env : ShieldedSpectrumEnv) (platform : Platform) :
    List StepCall → List Char → List (StepArgs × StepResult) × List Char
  | [], content => ([], content)
  | call :: rest, content =>
    match env.step platform call.proposed call.args (some (.jsonl content)) with
    | .ok (result, some (.jsonl after)) =>
      let (returned, last) := env.runSteps platform rest after
      ((call.args, result) :: returned, last)
    | _ => env.runSteps platform rest content

/-! Unpacking a record that a step packed. -/

section
variable {py : Interpreter} {args : StepArgs} {result : StepResult} {record : DecisionRecord}

theorem stored_get (back : RecordBack sortKeys (stamp none (stepRecord args result)) record)
    (key : String) : Dict.get? key record.chosenAction =
      (Dict.get? key (stepRecord args result).chosenAction).map fun v => sortKeys (jsonAny v) := by
  have form := back.chosenAction
  rw [jsonAny_dict, sortKeys_dict] at form
  rw [← Value.dict.inj form, get?_sortItems, Dict.get?_map, Option.map_map]
  · rfl
  · rw [List.map_map]
    simp [stamp, stepRecord]

theorem stored_float (back : RecordBack sortKeys (stamp none (stepRecord args result)) record)
    {key : String} {x : Number}
    (packed : Dict.get? key (stepRecord args result).chosenAction = some (.float x)) :
    readFloat py record.chosenAction key = (jsonFloat x).toFloat py := by
  rw [readFloat, stored_get back, packed, Option.map_some]
  simp only [jsonAny, sortKeys_jsonFloat]

theorem stored_flag (back : RecordBack sortKeys (stamp none (stepRecord args result)) record)
    {key : String} {b : Bool}
    (packed : Dict.get? key (stepRecord args result).chosenAction = some (.bool b)) :
    readFlag record.chosenAction key = .ok b := by
  rw [readFlag, stored_get back, packed]
  rfl

theorem stored_has (back : RecordBack sortKeys (stamp none (stepRecord args result)) record)
    {key : String} (packed : Dict.has (stepRecord args result).chosenAction key = true) :
    Dict.has record.chosenAction key = true := by
  rw [Dict.has, stored_get back, Option.isSome_map]
  exact packed

theorem recordTransition_stored (finite : FiniteResult result)
    (back : RecordBack sortKeys (stamp none (stepRecord args result)) record) :
    recordTransition py record = .ok (some (result.transition args)) := by
  obtain ⟨f, frequency⟩ := finite.frequency
  obtain ⟨tx, power⟩ := finite.power
  obtain ⟨c, centre⟩ := finite.executedFrequency
  obtain ⟨t, emitted⟩ := finite.executedPower
  obtain ⟨q, reward⟩ := finite.reward
  rw [recordTransition, stored_has back rfl, stored_has back rfl, Bool.and_self, if_pos rfl, stored_float back rfl,
    stored_float back rfl, stored_float back rfl, stored_float back rfl, stored_float back rfl,
    stored_flag back rfl, stored_flag back rfl, back.decisionId, frequency, power, centre, emitted,
    reward]
  simp only [StepResult.transition, frequency, power, centre, emitted, reward]
  rfl

theorem recorded_number (py : Interpreter) (x : Number) :
    (∃ q, x = .fin q ∧ (jsonFloat x).toFloat py = .ok (.fin q)) ∨
      (¬ ∃ q, x = .fin q) ∧ (jsonFloat x).toFloat py = .error .typeError := by
  cases x with
  | fin q => exact Or.inl ⟨q, rfl, rfl⟩
  | nan | inf _ =>
    refine Or.inr ⟨?_, rfl⟩
    rintro ⟨q, impossible⟩
    cases impossible

/-- A number that is not finite was recorded as null, and `float(None)` raises. -/
theorem recordTransition_null (infinite : ¬ FiniteResult result)
    (back : RecordBack sortKeys (stamp none (stepRecord args result)) record) :
    recordTransition py record = .error .typeError := by
  rw [recordTransition, stored_has back rfl, stored_has back rfl, Bool.and_self, if_pos rfl,
    stored_float back rfl, stored_float back rfl, stored_float back rfl, stored_float back rfl,
    stored_float back rfl]
  rcases recorded_number py result.proposed.frequencyHz with ⟨f, frequency, read⟩ | ⟨_, read⟩
  · rw [read, ok_bind]
    rcases recorded_number py result.proposed.txPowerDbm with ⟨tx, power, read⟩ | ⟨_, read⟩
    · rw [read, ok_bind]
      rcases recorded_number py result.executed.frequencyHz with ⟨c, centre, read⟩ | ⟨_, read⟩
      · rw [read, ok_bind]
        rcases recorded_number py result.executed.txPowerDbm with ⟨t, emitted, read⟩ | ⟨_, read⟩
        · rw [read, ok_bind]
          rcases recorded_number py result.reward with ⟨q, reward, _⟩ | ⟨_, read⟩
          · exact absurd ⟨⟨f, frequency⟩, ⟨tx, power⟩, ⟨c, centre⟩, ⟨t, emitted⟩, ⟨q, reward⟩⟩
              infinite
          · rw [read]
            rfl
        · rw [read]
          rfl
      · rw [read]
        rfl
    · rw [read]
      rfl
  · rw [read]
    rfl

end

/-! One step. -/

theorem collectTransitions_append (py : Interpreter) {rows more : List Outcome}
    {earlier : List Transition} (first : collectTransitions py rows = .ok earlier) :
    collectTransitions py (rows ++ more) =
      collectTransitions py more >>= fun later => .ok (earlier ++ later) := by
  induction rows generalizing earlier with
  | nil =>
    cases first
    rw [List.nil_append]
    cases collectTransitions py more <;> rfl
  | cons row rest ih =>
    cases row with
    | error e => cases first
    | ok entry =>
      obtain ⟨head, unpacked, first⟩ := bind_eq_ok first
      obtain ⟨tail, collected, first⟩ := bind_eq_ok first
      cases first
      rw [List.cons_append, collectTransitions, unpacked, ok_bind, ih collected]
      cases collectTransitions py more with
      | error e => rfl
      | ok later =>
        simp only [ok_bind, List.append_assoc]

section
variable {platform : Platform}

theorem loadTransitions_eq_ok {scope : Option String} {content : List Char}
    {transitions : List Transition} :
    loadTransitions platform scope content = .ok transitions ↔
      (EvidenceStore.jsonl content).verify platform scope = .ok (-1) ∧
      collectTransitions platform.py ((EvidenceStore.jsonl content).iter platform scope) =
        .ok transitions := by
  constructor
  · intro loaded
    obtain ⟨broken, verified, loaded⟩ := bind_eq_ok loaded
    split at loaded
    · cases loaded
    · rename_i whole
      rw [not_not.mp whole] at verified
      exact ⟨verified, loaded⟩
  · rintro ⟨verified, collected⟩
    rw [loadTransitions, verified, ok_bind, if_neg (not_not.mpr rfl), collected]

/-- A file that does not verify gives no transition. -/
theorem loadTransitions_refuses {scope : Option String} {content : List Char} :
    (∀ broken, (EvidenceStore.jsonl content).verify platform scope = .ok broken → broken ≠ -1 →
      loadTransitions platform scope content = .error evidenceIntegrityError) ∧
    ∀ e, (EvidenceStore.jsonl content).verify platform scope = .error e →
      loadTransitions platform scope content = .error e := by
  constructor
  · intro broken verified tampered
    rw [loadTransitions, verified, ok_bind, if_pos tampered]
  · intro e raised
    rw [loadTransitions, raised]
    rfl

variable {env : ShieldedSpectrumEnv} {args : StepArgs} {result : StepResult}

theorem stepRecord_valid
    (dated : platform.pydantic.isoOfText args.timestamp = some args.timestamp) :
    (stepRecord args result).valid platform.pydantic = true := by
  have tenth : platform.pydantic.inUnit (.fin (1 / 10)) = true := by
    simp only [Pydantic.inUnit, Number.isNan, Bool.false_eq_true, if_false]
    norm_num [Number.le_fin]
  have zeroUnit : platform.pydantic.inUnit (.fin 0) = true := by
    simp [Pydantic.inUnit, Number.isNan]
  have zeroLeast : platform.pydantic.atLeast 0 (.fin 0) = true := by
    simp [Pydantic.atLeast, Number.isNan]
  simp only [DecisionRecord.valid, stepRecord, dated, PredictedOutcome.valid, tenth, zeroUnit,
    zeroLeast, decide_true, Bool.and_self, List.all_nil, Option.all_none]

theorem stepRecord_finite : (stepRecord args result).finite = true := rfl

theorem stepRecord_unscoped : tenantOf (stamp none (stepRecord args result)) = unscopedTenant := rfl

/-- A step whose record comes back: its environment has a receiver, the numbers stay finite,
    the file ends with a whole line, and the last hash found for unscoped records is theirs. -/
structure Recordable (env : ShieldedSpectrumEnv) (platform : Platform) (content : List Char)
    (proposed : SpectrumAction) : Prop where
  terminated : (EvidenceStore.jsonl content).Terminated
  agrees : (EvidenceStore.jsonl content).Agrees platform unscopedTenant
  receiver : env.gains ≠ []
  stays : StaysFinite env proposed

/-- The file of a step that returned. -/
theorem step_written {proposed : SpectrumAction} {content : List Char}
    {after : Option EvidenceStore} (unscoped : args.tenant = none)
    (stepped : env.step platform proposed args (some (.jsonl content)) = .ok (result, after)) :
    ∃ store hash, after = some store ∧
      (EvidenceStore.jsonl content).append platform none (stepRecord args result) =
        .ok (store, hash) := by
  obtain ⟨_, _, _, _, _, recorded⟩ := step_cases stepped
  rw [ShieldedSpectrumEnv.Recorded, unscoped] at recorded
  rcases recorded with ⟨impossible, _⟩ | ⟨store, store', hash, given, rfl, appended⟩
  · cases impossible
  · cases given
    exact ⟨store', hash, rfl, appended⟩

/-- One step adds its record, and the file stays one to which steps can be added. -/
theorem step_row {proposed : SpectrumAction} {content : List Char}
    {after : Option EvidenceStore} (unscoped : args.tenant = none)
    (dated : platform.pydantic.isoOfText args.timestamp = some args.timestamp)
    (appendable : EvidenceStore.Appendable platform unscopedTenant content)
    (stepped : env.step platform proposed args (some (.jsonl content)) = .ok (result, after))
    (held : HeldRecord platform (stamp none (stepRecord args result))) :
    ∃ content' record hash, after = some (.jsonl content') ∧
      RecordBack sortKeys (stamp none (stepRecord args result)) record ∧
      (EvidenceStore.jsonl content').iter platform none =
        (EvidenceStore.jsonl content).iter platform none ++ [.ok (record, .str hash)] ∧
      EvidenceStore.Appendable platform unscopedTenant content' := by
  obtain ⟨store, hash, rfl, appended⟩ := step_written unscoped stepped
  obtain ⟨content', record, rfl, back, rows, next⟩ :=
    append_row platform (stepRecord_unscoped ▸ appendable) (stepRecord_valid dated)
      stepRecord_finite held appended
  rw [stepRecord_unscoped] at next
  exact ⟨content', record, hash, rfl, back, rows, next⟩

section
variable {proposed : SpectrumAction} {content : List Char} {after : Option EvidenceStore}
  {earlier : List Transition} (unscoped : args.tenant = none)
  (dated : platform.pydantic.isoOfText args.timestamp = some args.timestamp)
  (loaded : loadTransitions platform none content = .ok earlier)
  (terminated : (EvidenceStore.jsonl content).Terminated)
  (agrees : (EvidenceStore.jsonl content).Agrees platform unscopedTenant)
  (stepped : env.step platform proposed args (some (.jsonl content)) = .ok (result, after))
  (held : HeldRecord platform (stamp none (stepRecord args result)))
include unscoped dated loaded terminated agrees stepped held

/-- A step with finite numbers adds its transition. -/
theorem step_loaded (numbers : FiniteResult result) :
    ∃ content', after = some (.jsonl content') ∧
      loadTransitions platform none content' = .ok (earlier ++ [result.transition args]) ∧
      (EvidenceStore.jsonl content').Terminated ∧
      (EvidenceStore.jsonl content').Agrees platform unscopedTenant := by
  obtain ⟨verified, collected⟩ := loadTransitions_eq_ok.mp loaded
  obtain ⟨content', record, hash, rfl, back, rows, next⟩ :=
    step_row unscoped dated ⟨verified, terminated, agrees⟩ stepped held
  have last : collectTransitions platform.py [.ok (record, .str hash)] =
      .ok [result.transition args] := by
    rw [collectTransitions, recordTransition_stored numbers back]
    rfl
  refine ⟨content', rfl, loadTransitions_eq_ok.mpr ⟨next.intact, ?_⟩, next.terminated, next.agrees⟩
  rw [rows, collectTransitions_append platform.py collected, last]
  rfl

/-- After a step with a number that is not finite the file cannot be loaded. -/
theorem step_unloadable (infinite : ¬ FiniteResult result) :
    ∃ content', after = some (.jsonl content') ∧
      loadTransitions platform none content' = .error .typeError := by
  obtain ⟨verified, collected⟩ := loadTransitions_eq_ok.mp loaded
  obtain ⟨content', record, hash, rfl, back, rows, next⟩ :=
    step_row unscoped dated ⟨verified, terminated, agrees⟩ stepped held
  refine ⟨content', rfl, ?_⟩
  rw [loadTransitions, next.intact, ok_bind, if_neg (not_not.mpr rfl), rows,
    collectTransitions_append platform.py collected, collectTransitions,
    recordTransition_null infinite back]
  rfl

end
end

/-! Runs. -/

section
variable {env : ShieldedSpectrumEnv} {platform : Platform} {call : StepCall} {content : List Char}

theorem runSteps_returned (rest : List StepCall) {result : StepResult} {after : List Char}
    (stepped : env.step platform call.proposed call.args (some (.jsonl content)) =
      .ok (result, some (.jsonl after))) :
    env.runSteps platform (call :: rest) content =
      ((call.args, result) :: (env.runSteps platform rest after).1,
        (env.runSteps platform rest after).2) := by
  rw [runSteps, stepped]

theorem runSteps_raised (rest : List StepCall)
    (raised : ∀ result after, env.step platform call.proposed call.args (some (.jsonl content)) ≠
      .ok (result, some (.jsonl after))) :
    env.runSteps platform (call :: rest) content = env.runSteps platform rest content := by
  rw [runSteps]
  split
  · rename_i result after stepped
    exact absurd stepped (raised result after)
  · rfl

/-- The transitions of the steps that returned. -/
def returnedTransitions (run : List (StepArgs × StepResult) × List Char) : List Transition :=
  run.1.map fun step => step.2.transition step.1

/-- Every run of steps is read back after the transitions that the file gave before. -/
theorem run_loaded (calls : List StepCall) (earlier : List Transition)
    (unscoped : ∀ call ∈ calls, call.args.tenant = none)
    (finite : ∀ call ∈ calls, call.proposed.frequencyHz.isFinite = true ∧
      call.proposed.txPowerDbm.isFinite = true)
    (dated : ∀ call ∈ calls,
      platform.pydantic.isoOfText call.args.timestamp = some call.args.timestamp)
    (held : ∀ step ∈ (env.runSteps platform calls content).1,
      HeldRecord platform (stamp none (stepRecord step.1 step.2)))
    (loaded : loadTransitions platform none content = .ok earlier)
    (recordable : ∀ step ∈ (env.runSteps platform calls content).1,
      Recordable env platform content step.2.proposed) :
    loadTransitions platform none (env.runSteps platform calls content).2 =
      .ok (earlier ++ returnedTransitions (env.runSteps platform calls content)) := by
  induction calls generalizing content earlier with
  | nil =>
    rw [runSteps, returnedTransitions, List.map_nil, List.append_nil]
    exact loaded
  | cons call rest ih =>
    have restUnscoped := fun c member => unscoped c (List.mem_cons_of_mem call member)
    have restFinite := fun c member => finite c (List.mem_cons_of_mem call member)
    have restDated := fun c member => dated c (List.mem_cons_of_mem call member)
    by_cases returned : ∃ result after,
        env.step platform call.proposed call.args (some (.jsonl content)) =
          .ok (result, some (.jsonl after))
    · obtain ⟨result, after, stepped⟩ := returned
      rw [runSteps_returned rest stepped] at held recordable ⊢
      have first := recordable (call.args, result) List.mem_cons_self
      rw [step_proposed stepped] at first
      have numbers :=
        step_finite (finite call List.mem_cons_self) first.receiver first.stays stepped
      obtain ⟨content', written, extended, terminated, agrees⟩ :=
        step_loaded (unscoped call List.mem_cons_self) (dated call List.mem_cons_self) loaded
          first.terminated first.agrees stepped (held (call.args, result) List.mem_cons_self) numbers
      cases written
      have later : ∀ step ∈ (env.runSteps platform rest after).1,
          Recordable env platform after step.2.proposed := by
        intro step member
        have here := recordable step (List.mem_cons_of_mem _ member)
        exact ⟨terminated, agrees, here.receiver, here.stays⟩
      have more := ih (earlier ++ [result.transition call.args]) restUnscoped restFinite restDated
        (fun step member => held step (List.mem_cons_of_mem _ member)) extended later
      rw [List.append_assoc] at more
      exact more
    · push Not at returned
      rw [runSteps_raised rest returned] at held recordable ⊢
      exact ih earlier restUnscoped restFinite restDated held loaded recordable

end

/-! Logging one legal step. -/

/-- Floats of the records below, with their texts. -/
def logFloats : List (String × ℚ) :=
  [("0.0", 0), ("0.1", 1 / 10), ("1.0", 1), ("20.0", 20), ("3500000000.0", 3500000000)]

def logInterpreter : Interpreter where
  floatOfStr s := (logFloats.find? fun entry => entry.1 == s).map fun entry => .fin entry.2
  intOfStr _ := none
  floatRepr x := ((logFloats.find? fun entry => Number.fin entry.2 == x).map Prod.fst).getD "nan"
  strRepr s := s
  log10 _ := 7301029995663981 / 10 ^ 15

def logPlatform : Platform where
  py := logInterpreter
  pydantic := samplePydantic
  sha256 := samplePlatform.sha256

theorem logFloats_texts : ∀ entry ∈ logFloats,
    logInterpreter.floatRepr (.fin entry.2) = entry.1 ∧
      logInterpreter.floatOfStr entry.1 = some (.fin entry.2) := by
  norm_num [logFloats, logInterpreter]
  decide

theorem log_readable (text : String) {q : ℚ} (known : (text, q) ∈ logFloats)
    {whole : List Char} {digit : Char} (shape : text.toList = whole ++ ['.', digit])
    (digits : WholeDigits whole) (fraction : digit.isDigit = true) :
    FloatReadable logInterpreter q := by
  obtain ⟨printed, back⟩ := logFloats_texts (text, q) known
  constructor
  · refine ⟨[], whole, ['.', digit], [], ?_, Or.inl rfl, digits,
      Or.inr ⟨digit, [], rfl, List.forall_mem_singleton.mpr fraction⟩, Or.inl rfl, by simp⟩
    rw [printed, shape, List.nil_append, List.append_nil]
  · rw [printed, back]

theorem log_zero : FloatReadable logInterpreter 0 :=
  log_readable "0.0" (by simp [logFloats]) rfl (Or.inl rfl) rfl

theorem log_tenth : FloatReadable logInterpreter (1 / 10) :=
  log_readable "0.1" (by simp [logFloats]) rfl (Or.inl rfl) rfl

theorem log_one : FloatReadable logInterpreter 1 :=
  log_readable "1.0" (by simp [logFloats]) rfl
    (Or.inr ⟨'1', [], rfl, by decide, List.all_eq_true.mp rfl⟩) rfl

theorem log_power : FloatReadable logInterpreter 20 :=
  log_readable "20.0" (by simp [logFloats]) rfl
    (Or.inr ⟨'2', ['0'], rfl, by decide, List.all_eq_true.mp rfl⟩) rfl

theorem log_frequency : FloatReadable logInterpreter 3500000000 :=
  log_readable "3500000000.0" (by simp [logFloats])
    (show _ = ['3', '5', '0', '0', '0', '0', '0', '0', '0', '0'] ++ ['.', '0'] from rfl)
    (Or.inr ⟨'3', _, rfl, by decide, List.all_eq_true.mp rfl⟩) rfl

variable {result : StepResult} {proposed : SpectrumAction}

/-- The record of a step whose floats can be read. -/
theorem stepRecord_readable (args : StepArgs) {py : Interpreter} (tenth : FloatReadable py (1 / 10))
    (zeroBack : FloatReadable py 0)
    (numbers : ∀ x ∈ [result.proposed.frequencyHz, result.proposed.txPowerDbm,
      result.executed.frequencyHz, result.executed.txPowerDbm, result.reward],
        Readable py (jsonFloat x)) :
    Readable py (stamp none (stepRecord args result)).modelDump := by
  simp only [List.forall_mem_cons] at numbers
  obtain ⟨frequency, power, executedFrequency, executedPower, reward, _⟩ := numbers
  have free : Readable py (jsonAny (.dict (stepRecord args result).chosenAction)) := by
    rw [jsonAny_dict, readable_dict]
    refine ⟨?_, ?_⟩
    · rw [List.map_map]
      simp [stepRecord]
    · simp [stepRecord, jsonAny, Readable, frequency, power, executedFrequency, executedPower,
        reward]
  have outcome : Readable py (stepRecord args result).predictedOutcomeChosen.dump :=
    outcome_readable rfl ⟨tenth, tenth, tenth, zeroBack, zeroBack⟩
  rw [DecisionRecord.modelDump, readable_dict]
  refine ⟨record_keys _, ?_⟩
  simp only [DecisionRecord.items, List.forall_mem_cons]
  refine ⟨trivial, trivial, trivial, trivial, trivial, trivial, free, outcome, trivial, trivial,
    versions_readable _, trivial, trivial, trivial, trivial, trivial, trivial, trivial, ?_⟩
  exact List.forall_mem_nil _

/-- A legal proposal is executed as it is. -/
theorem step_of_legal (platform : Platform) (args : StepArgs) {env : ShieldedSpectrumEnv}
    {bw cap : ℚ} (placed : Placed env bw cap) (legal : Legal env bw proposed) {realised : Number}
    (rewarded : env.reward platform.py proposed = some realised) :
    ∃ result, result.proposed = proposed ∧ result.executed = proposed ∧ result.reward = realised ∧
      ∀ store after, record platform args result store = .ok after →
        env.step platform proposed args store = .ok (result, after) := by
  have holds : ∀ inv ∈ (env.shield platform.py).invariants,
      Holds (env.actionPayload proposed) [] inv := (holds_payload_iff placed []).mpr legal
  obtain ⟨d, disposed, _, same, _⟩ := Shield.dispose_of_holds (env.shield platform.py) platform.py
    (env.actionPayload proposed) (some []) (disposeArgs args) rfl holds rfl
  have frequency : readFloat platform.py d.safeAction "frequency_hz" =
      .ok proposed.frequencyHz := by
    rw [same]
    rfl
  have power : readFloat platform.py d.safeAction "tx_power_dBm" = .ok proposed.txPowerDbm := by
    rw [same]
    rfl
  obtain ⟨result, executed, ran⟩ := execute_isOk frequency power rewarded proposed
  have stepped : ∀ store after, record platform args result store = .ok after →
      env.step platform proposed args store = .ok (result, after) := by
    intro store after recorded
    simp only [step, disposed, ok_bind, executed, recorded]
  have alone := stepped none none rfl
  obtain ⟨_, _, _, _, realised', _⟩ := step_cases alone
  rw [ran, rewarded] at realised'
  exact ⟨result, step_proposed alone, ran, (Option.some.inj realised').symm, stepped⟩

def logAction : SpectrumAction := ⟨.fin 3500000000, .fin 20⟩

def logArgs : StepArgs :=
  { decisionId := "step-1", issuedAt := "2026-01-01T00:00:00Z", timestamp := "2026-01-01T00:00:00Z" }

def logCall : StepCall := ⟨logAction, logArgs⟩

/-- A legal step of these numbers, with an empty file. -/
theorem logged {env : ShieldedSpectrumEnv} {bw cap : ℚ} (placed : Placed env bw cap)
    (legal : Legal env bw logAction) {realised : Number}
    (rewarded : env.reward logInterpreter logAction = some realised)
    (readable : Readable logInterpreter (jsonFloat realised)) :
    ∃ result content, result.reward = realised ∧
      HeldRecord logPlatform (stamp none (stepRecord logArgs result)) ∧
      env.step logPlatform logCall.proposed logCall.args (some (.jsonl [])) =
        .ok (result, some (.jsonl content)) ∧
      env.runSteps logPlatform [logCall] [] = ([(logArgs, result)], content) := by
  obtain ⟨result, same, ran, reward, stepped⟩ :=
    step_of_legal logPlatform logArgs placed legal rewarded
  have numbers : ∀ x ∈ [result.proposed.frequencyHz, result.proposed.txPowerDbm,
      result.executed.frequencyHz, result.executed.txPowerDbm, result.reward],
        Readable logInterpreter (jsonFloat x) := by
    rw [same, ran, reward]
    simp only [List.forall_mem_cons]
    exact ⟨log_frequency, log_power, log_frequency, log_power, readable, List.forall_mem_nil _⟩
  have back := stepRecord_readable logArgs log_tenth log_zero numbers
  obtain ⟨content, hash, appended⟩ := append_empty logPlatform back
  have recorded : record logPlatform logArgs result (some (.jsonl [])) =
      .ok (some (.jsonl content)) := by
    rw [record]
    change ((EvidenceStore.jsonl []).append logPlatform none _ >>= _) = _
    rw [appended]
    rfl
  have returned : env.step logPlatform logCall.proposed logCall.args (some (.jsonl [])) =
      .ok (result, some (.jsonl content)) := stepped _ _ recorded
  have run := runSteps_returned [] returned
  rw [runSteps] at run
  exact ⟨result, content, reward, fun _ => back, returned, run⟩

theorem log_legal {env : ShieldedSpectrumEnv} (lo : env.bandLoHz = .fin 3450000000)
    (hi : env.bandHiHz = .fin 3550000000) (cap : env.maxEirpDbm = .fin 33) :
    Legal env 20000000 logAction := by
  refine ⟨3500000000, 20, ⟨rfl, by norm_num, rfl⟩, ?_, ?_⟩
  · rw [SpectralMask.LegalCentre, usableLo_eq, usableHi_eq, lo, hi]
    norm_num [Number.le_fin]
  · rw [cap]
    norm_num [Number.le_fin]

/-- No receivers: the mean of no SINR is recorded as null. -/
def noReceiver : ShieldedSpectrumEnv := { gains := [] }

end HorizonRic.Learning
