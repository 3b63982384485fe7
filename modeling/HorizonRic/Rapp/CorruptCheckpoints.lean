import HorizonRic.Rapp.LifecycleState
import HorizonRic.Python.JsonRaises
import HorizonRic.Python.JsonText

/-!
The three readers of checkpoint files on damaged content: `load_state`, the
lifecycle's `_restore_from_disk`, and `StateCheckpoint.load` of the daemon.
-/
namespace HorizonRic.Rapp

open Py Json

def recursionError : PyErr := .other "RecursionError"

/-- A reader on a stack of limited depth: `json.loads` gives up on the texts that nest too deep,
    before it has seen what else they hold. No blank text is one. -/
def withinStack {α : Type} (deep : String → Bool) (file : StateFile)
    (reader : StateFile → Except PyErr α) : Except PyErr α :=
  match file with
  | .text raw =>
    if strip raw.toList ≠ [] ∧ deep raw = true then .error recursionError else reader file
  | _ => reader file

section
variable (py : Interpreter) (deep : String → Bool) (file : StateFile)

/-- The JSON object that the file holds, if it holds one. -/
def storedObject : Option (Dict Value) :=
  match file with
  | .text raw =>
    match loads py raw.toList with
    | .ok (.dict d) => some d
    | _ => none
  | _ => none

/-! What the readers are for: no exception, and the stored fields or the defaults. -/

/-- `load_state` gives the stored object, or None where there is none. -/
def LoadStateTolerates : Prop :=
  withinStack deep file (loadState py) = .ok (storedObject py file)

/-- What the restored fields may be: the stored ones, or a default for one that is unusable. -/
structure RestoredFrom (stored : Option (Dict Value)) (c : EmitCounters) : Prop where
  count : c.a1EmittedCount = 0 ∨
    ∃ d ∈ stored, (Dict.getD d "a1_emitted_count" (.int 0)).toInt py = .ok c.a1EmittedCount
  decision : c.lastDecisionId = .null ∨
    ∃ d ∈ stored, c.lastDecisionId = Dict.getD d "last_decision_id" .null
  chainHead : c.evidenceChainHead = .null ∨
    ∃ d ∈ stored, c.evidenceChainHead = Dict.getD d "evidence_chain_head" .null

def RestoreTolerates : Prop :=
  ∃ c, withinStack deep file (restoreFromDisk py) = .ok c ∧
    RestoredFrom py (storedObject py file) c

/-- Every field of the loaded checkpoint is the stored one or its default. -/
structure LoadedFrom (stored : Option (Dict Value)) (c : StateCheckpoint) : Prop where
  lastEvent : c.lastEventId = .null ∨
    ∃ d ∈ stored, c.lastEventId = Dict.getD d "last_event_id" .null
  processed : c.eventsProcessed = 0 ∨
    ∃ d ∈ stored, (Dict.getD d "events_processed" (.int 0)).toInt py = .ok c.eventsProcessed
  emitted : c.decisionsEmitted = 0 ∨
    ∃ d ∈ stored, (Dict.getD d "decisions_emitted" (.int 0)).toInt py = .ok c.decisionsEmitted
  checkpointed : c.lastCheckpointUtc = .str "" ∨
    ∃ d ∈ stored, c.lastCheckpointUtc = Dict.getD d "last_checkpoint_utc" (.str "")

def CheckpointTolerates : Prop :=
  ∃ c, withinStack deep file (StateCheckpoint.load py) = .ok c ∧
    LoadedFrom py (storedObject py file) c

/-! When they do. -/

/-- `int(value)` gives an integer. -/
def Countable (v : Value) : Prop :=
  match v with
  | .bool _ => True
  | .int _ => True
  | .float x => x.isFinite = true
  | .str s => (py.intOfStr s).isSome = true
  | _ => False

/-- `int(value)` gives an integer or raises ValueError. -/
def CountableOrRefused (v : Value) : Prop :=
  match v with
  | .bool _ => True
  | .int _ => True
  | .float x => x.isFinite = true ∨ x = .nan
  | .str _ => True
  | _ => False

/-- The text does not nest too deep, and `json.loads` meets no integer of more than 4300 digits. -/
def StateReadable : Prop :=
  ∀ raw, file = .text raw → strip raw.toList ≠ [] →
    deep raw = false ∧ loads py raw.toList ≠ .error .valueError

/-- And a stored object holds a count that `int` converts. -/
def CountReadable : Prop :=
  StateReadable py deep file ∧
    ∀ d ∈ storedObject py file, Countable py (Dict.getD d "a1_emitted_count" (.int 0))

/-- The text does not nest too deep, and what it holds, if it is JSON, is an object whose counters
    `int` converts or refuses with ValueError; the second is looked at after the first. -/
def CheckpointReadable : Prop :=
  ∀ raw, file = .text raw → strip raw.toList ≠ [] → deep raw = false ∧
    ∀ v, loads py raw.toList = .ok v → ∃ d, v = .dict d ∧
      CountableOrRefused (Dict.getD d "events_processed" (.int 0)) ∧
        (Countable py (Dict.getD d "events_processed" (.int 0)) →
          CountableOrRefused (Dict.getD d "decisions_emitted" (.int 0)))

end

/-! Conversions, and texts. -/

section
variable {py : Interpreter} {deep : String → Bool} {raw : String}

theorem countable_iff (v : Value) : (∃ n, v.toInt py = .ok n) ↔ Countable py v := by
  cases v with
  | float x => cases x <;> simp [Value.toInt, Number.toInt, Countable, Number.isFinite]
  | str s =>
    simp only [Value.toInt, Countable]
    cases py.intOfStr s <;> simp
  | _ => simp [Value.toInt, Countable]

theorem countableOrRefused_iff (v : Value) :
    (∀ e, v.toInt py = .error e → e = .valueError) ↔ CountableOrRefused v := by
  cases v with
  | float x => cases x <;> simp [Value.toInt, Number.toInt, CountableOrRefused, Number.isFinite]
  | str s =>
    simp only [Value.toInt, CountableOrRefused, iff_true]
    cases py.intOfStr s <;> simp
  | _ => simp [Value.toInt, CountableOrRefused]

theorem loads_blank {text : List Char} (blank : strip text = []) :
    loads py text = .error .jsonDecodeError := by
  have spaces := (strip_eq_nil_iff text).mp blank
  unfold loads
  cases skipped : skipSpace text with
  | nil => rfl
  | cons c rest =>
    have inside : c ∈ text := by
      apply (List.dropWhile_sublist isSpace).subset
      rw [← skipSpace, skipped]
      exact List.mem_cons_self
    rw [parseValue_blank py (spaces c inside)]
    rfl

theorem withinStack_blank {α : Type} {reader : StateFile → Except PyErr α}
    (blank : strip raw.toList = []) : withinStack deep (.text raw) reader = reader (.text raw) :=
  if_neg fun both => both.1 blank

theorem withinStack_deep {α : Type} {reader : StateFile → Except PyErr α}
    (solid : strip raw.toList ≠ []) (tooDeep : deep raw = true) :
    withinStack deep (.text raw) reader = .error recursionError := if_pos ⟨solid, tooDeep⟩

theorem withinStack_shallow {α : Type} {reader : StateFile → Except PyErr α}
    (shallow : deep raw = false) : withinStack deep (.text raw) reader = reader (.text raw) :=
  if_neg fun both => by rw [shallow] at both; cases both.2

theorem storedObject_text : storedObject py (.text raw) =
    match loads py raw.toList with | .ok (.dict d) => some d | _ => none := rfl

theorem storedObject_blank (blank : strip raw.toList = []) :
    storedObject py (.text raw) = none := by
  rw [storedObject_text, loads_blank blank]

/-! `load_state`. -/

theorem loadStateTolerates_iff (file : StateFile) :
    LoadStateTolerates py deep file ↔ StateReadable py deep file := by
  unfold LoadStateTolerates StateReadable
  cases file with
  | missing => simp [withinStack, loadState, storedObject]
  | unreadable => simp [withinStack, loadState, storedObject]
  | text raw =>
    simp only [StateFile.text.injEq, forall_eq']
    by_cases blank : strip raw.toList = []
    · rw [withinStack_blank blank, storedObject_blank blank, loadState, if_pos blank]
      simp [blank]
    · cases stack : deep raw with
      | true =>
        rw [withinStack_deep blank stack]
        simp [blank]
      | false =>
        rw [withinStack_shallow stack, loadState, if_neg blank, storedObject_text]
        rcases loads_cases py raw.toList with ⟨v, loaded⟩ | loaded | loaded
        · rw [loaded]
          cases v <;> simp
        · simp [loaded]
        · simp [loaded, blank]

/-! `_restore_from_disk`. -/

theorem restored_default (stored : Option (Dict Value)) :
    RestoredFrom py stored ⟨0, .null, .null, 0⟩ :=
  ⟨Or.inl rfl, Or.inl rfl, Or.inl rfl⟩

theorem restore_default {file : StateFile} (nothing : loadState py file = .ok none) :
    restoreFromDisk py file = .ok ⟨0, .null, .null, 0⟩ := by
  rw [restoreFromDisk, nothing]
  rfl

/-- From a stored object the fields are restored exactly where `int` converts its count. -/
theorem restore_object_iff {file : StateFile} {d : Dict Value}
    (stored : loadState py file = .ok (some d)) :
    (∃ c, restoreFromDisk py file = .ok c ∧ RestoredFrom py (some d) c) ↔
      Countable py (Dict.getD d "a1_emitted_count" (.int 0)) := by
  rw [restoreFromDisk, stored, ok_bind, ← countable_iff]
  constructor
  · rintro ⟨c, restored, _⟩
    obtain ⟨n, counted, _⟩ := bind_eq_ok restored
    exact ⟨n, counted⟩
  · rintro ⟨n, counted⟩
    refine ⟨_, by simp only [counted, ok_bind]; rfl, ?_⟩
    exact ⟨Or.inr ⟨d, rfl, counted⟩, Or.inr ⟨d, rfl, rfl⟩, Or.inr ⟨d, rfl, rfl⟩⟩

theorem restoreTolerates_iff (file : StateFile) :
    RestoreTolerates py deep file ↔ CountReadable py deep file := by
  unfold CountReadable
  by_cases readable : StateReadable py deep file
  · rw [and_iff_right readable]
    have loaded := (loadStateTolerates_iff file).mpr readable
    -- the stack that held for `load_state` holds here, as it is the same parse
    have sameStack : ∀ {α : Type} (reader : StateFile → Except PyErr α),
        withinStack deep file reader = reader file := by
      intro α reader
      cases file with
      | missing => rfl
      | unreadable => rfl
      | text raw =>
        by_cases blank : strip raw.toList = []
        · exact withinStack_blank blank
        · exact withinStack_shallow (readable raw rfl blank).1
    unfold LoadStateTolerates at loaded
    unfold RestoreTolerates
    rw [sameStack] at loaded ⊢
    cases stored : storedObject py file with
    | none =>
      rw [stored] at loaded
      rw [restore_default loaded]
      simp only [Option.not_mem_none, false_imp_iff, implies_true, iff_true]
      exact ⟨_, rfl, restored_default none⟩
    | some d =>
      rw [stored] at loaded
      rw [restore_object_iff loaded]
      simp
  · refine iff_of_false ?_ fun both => readable both.1
    rintro ⟨c, restored, _⟩
    refine readable fun raw isText solid => ?_
    subst isText
    cases stack : deep raw with
    | true =>
      rw [withinStack_deep solid stack] at restored
      cases restored
    | false =>
      refine ⟨rfl, fun long => ?_⟩
      rw [withinStack_shallow stack, restoreFromDisk, loadState, if_neg solid, long] at restored
      cases restored

/-! `StateCheckpoint.load`. -/

theorem toInt_error {v : Value} {e : PyErr} (raised : v.toInt py = .error e) :
    StateCheckpoint.isCorrupt e = true ↔ e = .valueError := by
  have data := toInt_raises py v e raised
  cases e <;> simp_all [StateCheckpoint.isCorrupt, isDataError]

theorem loaded_default (stored : Option (Dict Value)) : LoadedFrom py stored {} :=
  ⟨Or.inl rfl, Or.inl rfl, Or.inl rfl, Or.inl rfl⟩

/-- A refused counter gives the whole default. -/
theorem load_refused {content : String} {e : PyErr}
    (raised : StateCheckpoint.parse py content = .error e) :
    (∃ c, StateCheckpoint.load py (.text content) = .ok c ∧
        LoadedFrom py (storedObject py (.text content)) c) ↔
      StateCheckpoint.isCorrupt e = true := by
  rw [StateCheckpoint.load, raised]
  by_cases corrupt : StateCheckpoint.isCorrupt e = true
  · simp only [corrupt, if_true]
    exact iff_of_true ⟨{}, rfl, loaded_default _⟩ trivial
  · simp [corrupt]

theorem load_object_iff {content : String} {d : Dict Value}
    (loaded : loads py content.toList = .ok (.dict d)) :
    (∃ c, StateCheckpoint.load py (.text content) = .ok c ∧
        LoadedFrom py (storedObject py (.text content)) c) ↔
      CountableOrRefused (Dict.getD d "events_processed" (.int 0)) ∧
        (Countable py (Dict.getD d "events_processed" (.int 0)) →
          CountableOrRefused (Dict.getD d "decisions_emitted" (.int 0))) := by
  have stored : storedObject py (.text content) = some d := by rw [storedObject_text, loaded]
  rw [← @countableOrRefused_iff py, ← @countableOrRefused_iff py, ← countable_iff]
  cases first : (Dict.getD d "events_processed" (.int 0)).toInt py with
  | error e =>
    have raised : StateCheckpoint.parse py content = .error e := by
      rw [StateCheckpoint.parse, loaded, ok_bind]
      simp only [first]
      rfl
    rw [load_refused raised, toInt_error first]
    simp
  | ok processed =>
    cases second : (Dict.getD d "decisions_emitted" (.int 0)).toInt py with
    | error e =>
      have raised : StateCheckpoint.parse py content = .error e := by
        rw [StateCheckpoint.parse, loaded, ok_bind]
        simp only [first, second]
        rfl
      rw [load_refused raised, toInt_error second]
      simp
    | ok emitted =>
      have parsed : StateCheckpoint.parse py content =
          .ok ⟨Dict.getD d "last_event_id" .null, processed, emitted,
            Dict.getD d "last_checkpoint_utc" (.str "")⟩ := by
        rw [StateCheckpoint.parse, loaded, ok_bind]
        simp only [first, second]
        rfl
      rw [StateCheckpoint.load, parsed, stored]
      simp only [reduceCtorEq, false_imp_iff, implies_true, and_self, iff_true]
      exact ⟨_, rfl, Or.inr ⟨d, rfl, rfl⟩, Or.inr ⟨d, rfl, first⟩, Or.inr ⟨d, rfl, second⟩,
        Or.inr ⟨d, rfl, rfl⟩⟩

theorem checkpointTolerates_iff (file : StateFile) :
    CheckpointTolerates py deep file ↔ CheckpointReadable py deep file := by
  unfold CheckpointTolerates CheckpointReadable
  cases file with
  | missing => simpa [withinStack, StateCheckpoint.load] using loaded_default _
  | unreadable => simpa [withinStack, StateCheckpoint.load] using loaded_default _
  | text raw =>
    simp only [StateFile.text.injEq, forall_eq']
    by_cases blank : strip raw.toList = []
    · have raised : StateCheckpoint.parse py raw = .error .jsonDecodeError := by
        rw [StateCheckpoint.parse, loads_blank blank]
        rfl
      rw [withinStack_blank blank, load_refused raised]
      simp [blank, StateCheckpoint.isCorrupt]
    · cases stack : deep raw with
      | true =>
        rw [withinStack_deep blank stack]
        simp [blank]
      | false =>
        rw [withinStack_shallow stack]
        simp only [ne_eq, blank, not_false_eq_true, true_imp_iff, true_and]
        rcases loads_cases py raw.toList with ⟨v, loaded⟩ | loaded | loaded
        · rw [loaded]
          simp only [Except.ok.injEq, forall_eq']
          cases v with
          | dict d =>
            rw [load_object_iff loaded]
            simp
          | _ =>
            have raised : StateCheckpoint.parse py raw = .error .attributeError := by
              rw [StateCheckpoint.parse, loaded]
              rfl
            rw [load_refused raised]
            simp [StateCheckpoint.isCorrupt]
        · have raised : StateCheckpoint.parse py raw = .error .jsonDecodeError := by
            rw [StateCheckpoint.parse, loaded]
            rfl
          rw [load_refused raised, loaded]
          simp [StateCheckpoint.isCorrupt]
        · have raised : StateCheckpoint.parse py raw = .error .valueError := by
            rw [StateCheckpoint.parse, loaded]
            rfl
          rw [load_refused raised, loaded]
          simp [StateCheckpoint.isCorrupt]

end

/-- When the three readers return, with stored fields or defaults, whatever the file holds. -/
theorem checkpointReaders_iff (py : Interpreter) (deep : String → Bool) (file : StateFile) :
    (LoadStateTolerates py deep file ↔ StateReadable py deep file) ∧
      (RestoreTolerates py deep file ↔ CountReadable py deep file) ∧
        (CheckpointTolerates py deep file ↔ CheckpointReadable py deep file) :=
  ⟨loadStateTolerates_iff file, restoreTolerates_iff file, checkpointTolerates_iff file⟩

/-- An interpreter that reads no floats. -/
def wordInterpreter : Interpreter where
  floatOfStr _ := none
  intOfStr _ := none
  floatRepr _ := ""
  strRepr s := s
  log10 _ := 0

/-- A count of null stops the restart with a TypeError, and an empty array with an
    AttributeError. -/
theorem null_count_raises :
    restoreFromDisk wordInterpreter (.text "\x7b\"a1_emitted_count\":null\x7d") =
        .error .typeError ∧
      ¬RestoreTolerates wordInterpreter (fun _ => false)
        (.text "\x7b\"a1_emitted_count\":null\x7d") ∧
      StateCheckpoint.load wordInterpreter (.text "[]") = .error .attributeError ∧
      ¬CheckpointTolerates wordInterpreter (fun _ => false) (.text "[]") := by
  have restart : restoreFromDisk wordInterpreter
      (.text "\x7b\"a1_emitted_count\":null\x7d") = .error .typeError := by
    have solid : strip "\x7b\"a1_emitted_count\":null\x7d".toList ≠ [] := by decide
    have printed : "\x7b\"a1_emitted_count\":null\x7d".toList =
        print wordInterpreter compact (.dict [("a1_emitted_count", .null)]) := by decide
    have readable : Readable wordInterpreter (.dict [("a1_emitted_count", .null)]) := by
      rw [readable_dict]
      simp [Readable]
    rw [restoreFromDisk, loadState, if_neg solid, printed,
      loads_print wordInterpreter compact_plain readable]
    rfl
  have daemon : StateCheckpoint.load wordInterpreter (.text "[]") = .error .attributeError :=
    rfl
  refine ⟨restart, ?_, daemon, ?_⟩
  · rintro ⟨c, restored, _⟩
    rw [withinStack_shallow rfl, restart] at restored
    cases restored
  · rintro ⟨c, loaded, _⟩
    rw [withinStack_shallow rfl, daemon] at loaded
    cases loaded

end HorizonRic.Rapp
