import HorizonRic.Evidence.Append
import HorizonRic.Evidence.ChainHead

/-!
What the chain does not protect in a JSONL file. The hash covers the record that
validation builds, so keys that the schema does not know and the outer tenant
label can be changed without a trace: only a file without rows is protected.
-/
namespace HorizonRic.Evidence

open Py Json HashChain

section
variable (env : Platform)

/-- The JSON of the lines that are not blank. -/
def contentObjects (content : List Char) : List (Except PyErr Value) :=
  ((linesOf content).filter fun line => decide (strip line ≠ [])).map fun line =>
    loads env.py (strip line)

/-- The row that an object contributes, if any. -/
def objectOutcome (scope : Option String) (obj : Value) : Option Outcome :=
  match readObject env scope obj with
  | .ok (some row) => some (.ok row)
  | .ok none => none
  | .error e => some (.error e)

/-- The row of a line's JSON, or the exception that `json.loads` raised. -/
def loadedOutcome (scope : Option String) : Except PyErr Value → Option Outcome
  | .ok obj => objectOutcome env scope obj
  | .error e => some (.error e)

/-- The 'record' value of a line, up to the order of keys, and its outer 'tenant_id' label. -/
def protectedParts (obj : Value) : Option Value × Option Value :=
  match obj with
  | .dict d => ((Dict.get? "record" d).map sortKeys, Dict.get? "tenant_id" d)
  | _ => (none, none)

def tenantParts (tenant : String) : Except PyErr Value → Option (Option Value × Option Value)
  | .ok obj =>
    match objectOutcome env none obj with
    | some (.ok row) => if tenantOf row.1 = tenant then some (protectedParts obj) else none
    | _ => none
  | .error _ => none

/-- The protected parts of the tenant's lines, in order. -/
def tenantObjects (tenant : String) (content : List Char) :
    List (Option Value × Option Value) :=
  (contentObjects env content).filterMap (tenantParts env tenant)

/-- Files that verify and agree on every last hash agree on every protected part. -/
def Committed (content : List Char) : Prop :=
  ∀ other, (EvidenceStore.jsonl other).verify env none = .ok (-1) →
    (∀ tenant, (EvidenceStore.jsonl content).lastRowHash env tenant =
      (EvidenceStore.jsonl other).lastRowHash env tenant) →
    ∀ tenant, tenantObjects env tenant content = tenantObjects env tenant other

/-- A change of any key or value of one line is detected. -/
def EditsDetected (content : List Char) : Prop :=
  ∀ other before after obj obj',
    contentObjects env content = before ++ .ok obj :: after →
    contentObjects env other = before ++ .ok obj' :: after → sortKeys obj ≠ sortKeys obj' →
    (EvidenceStore.jsonl other).verify env none ≠ .ok (-1)

/-- Inside a scope exactly the rows are visible whose hashed record belongs to the tenant. -/
def ScopesFaithful (content : List Char) : Prop :=
  ∀ tenant, (EvidenceStore.jsonl content).iter env (some tenant) =
    (tenantRows tenant ((EvidenceStore.jsonl content).parsed env)).map Except.ok

/-! Lines and objects. -/

theorem lineOutcome_loads {line : List Char} (scope : Option String) (solid : strip line ≠ []) :
    lineOutcome env scope line = loadedOutcome env scope (loads env.py (strip line)) := by
  rw [lineOutcome, readLine, if_neg solid]
  cases loads env.py (strip line) <;> rfl

theorem iter_objects (scope : Option String) (content : List Char) :
    (EvidenceStore.jsonl content).iter env scope =
      (contentObjects env content).filterMap (loadedOutcome env scope) := by
  rw [EvidenceStore.iter, contentObjects]
  induction linesOf content with
  | nil => rfl
  | cons line rest ih =>
    by_cases blank : strip line = []
    · have skipped : lineOutcome env scope line = none := by
        rw [lineOutcome, readLine, if_pos blank]
      rw [List.filterMap_cons, skipped, ih, List.filter_cons, if_neg (by simp [blank])]
    · rw [List.filter_cons, if_pos (by simpa using blank), List.map_cons, List.filterMap_cons,
        List.filterMap_cons, lineOutcome_loads env scope blank, ih]

/-- An object that gives a row: a mapping with a record that validates, and a hash. -/
theorem readObject_some {scope : Option String} {obj : Value} {row : ParsedRow}
    (given : readObject env scope obj = .ok (some row)) :
    ∃ d record, obj = .dict d ∧ Dict.get? "record" d = some record ∧
      validate env.pydantic env.pydantic.python record = some row.1 ∧
      Dict.get? "hash" d = some row.2 := by
  obtain ⟨record, found, more⟩ := bind_eq_ok given
  obtain ⟨r, validated, more⟩ := bind_eq_ok more
  obtain ⟨label, _, more⟩ := bind_eq_ok more
  cases obj with
  | dict d =>
    split at more
    · obtain ⟨stored, hash, done⟩ := bind_eq_ok more
      cases done
      refine ⟨d, record, rfl, ?_, ?_, ?_⟩
      · unfold subscript at found
        dsimp only at found
        split at found
        · cases found
          assumption
        · cases found
      · unfold modelValidate at validated
        split at validated
        · cases validated
          assumption
        · cases validated
      · unfold subscript at hash
        dsimp only at hash
        split at hash
        · cases hash
          assumption
        · cases hash
    · cases more
  | _ => cases found

theorem loadedOutcome_ok {loaded : Except PyErr Value} {row : ParsedRow}
    (given : loadedOutcome env none loaded = some (.ok row)) :
    ∃ obj, loaded = .ok obj ∧ readObject env none obj = .ok (some row) := by
  cases loaded with
  | error e => cases given
  | ok obj =>
    refine ⟨obj, rfl, ?_⟩
    unfold loadedOutcome objectOutcome at given
    dsimp only at given
    cases read : readObject env none obj with
    | error e =>
      rw [read] at given
      cases given
    | ok opt =>
      cases opt with
      | none =>
        rw [read] at given
        cases given
      | some row' =>
        rw [read] at given
        cases given
        rfl

theorem loadedOutcome_some (loaded : Except PyErr Value) :
    ∃ outcome, loadedOutcome env none loaded = some outcome := by
  cases loaded with
  | error e => exact ⟨_, rfl⟩
  | ok obj =>
    rw [loadedOutcome, objectOutcome]
    rcases readObject_cases env obj with ⟨e, read⟩ | ⟨row, read⟩
    · rw [read]
      exact ⟨_, rfl⟩
    · rw [read]
      exact ⟨_, rfl⟩

/-- The objects of a file whose rows can all be read, each with its row. -/
theorem objects_of_rows {loadeds : List (Except PyErr Value)} {rows : List ParsedRow}
    (outcomes : loadeds.filterMap (loadedOutcome env none) = rows.map Except.ok) :
    ∃ pairs : List (Value × ParsedRow), loadeds = pairs.map (fun x => Except.ok x.1) ∧
      rows = pairs.map Prod.snd ∧ ∀ x ∈ pairs, readObject env none x.1 = .ok (some x.2) := by
  induction loadeds generalizing rows with
  | nil =>
    cases rows with
    | nil => exact ⟨[], rfl, rfl, fun _ member => absurd member List.not_mem_nil⟩
    | cons row rest => cases outcomes
  | cons loaded rest ih =>
    obtain ⟨outcome, first⟩ := loadedOutcome_some env loaded
    rw [List.filterMap_cons, first] at outcomes
    cases rows with
    | nil => cases outcomes
    | cons row rows =>
      obtain ⟨rfl, later⟩ := List.cons.inj outcomes
      obtain ⟨obj, rfl, read⟩ := loadedOutcome_ok env first
      obtain ⟨pairs, rfl, rfl, each⟩ := ih later
      refine ⟨(obj, row) :: pairs, rfl, rfl, fun x member => ?_⟩
      rcases List.mem_cons.mp member with rfl | deeper
      · exact read
      · exact each x deeper

theorem rows_of_objects {pairs : List (Value × ParsedRow)}
    (each : ∀ x ∈ pairs, readObject env none x.1 = .ok (some x.2)) :
    (pairs.map fun x => Except.ok x.1).filterMap (loadedOutcome env none) =
      (pairs.map Prod.snd).map Except.ok := by
  induction pairs with
  | nil => rfl
  | cons x rest ih =>
    have outcome : loadedOutcome env none (.ok x.1) = some (.ok x.2) := by
      rw [loadedOutcome, objectOutcome, each x List.mem_cons_self]
    rw [List.map_cons, List.filterMap_cons, outcome,
      ih fun y later => each y (List.mem_cons_of_mem _ later)]
    rfl

/-! Writing objects as lines. -/

def renderLine (obj : Value) : List Char := print env.py spaced obj ++ ['\n']

def render (objs : List Value) : List Char := objs.flatMap (renderLine env)

theorem linesOf_render {objs : List Value} (readable : ∀ obj ∈ objs, Readable env.py obj) :
    linesOf (render env objs) = objs.map (renderLine env) := by
  have plain : ∀ obj ∈ objs, '\n' ∉ print env.py spaced obj ∧ '\r' ∉ print env.py spaced obj := by
    intro obj member
    have printable := print_printable env.py spaced_printable (readable obj member)
    exact ⟨fun inside => (printable_not_newline (printable _ inside)).1 rfl,
      fun inside => (printable_not_newline (printable _ inside)).2 rfl⟩
  have noReturn : '\r' ∉ render env objs := by
    intro inside
    obtain ⟨obj, member, within⟩ := List.mem_flatMap.mp inside
    rcases List.mem_append.mp within with text | newline
    · exact (plain obj member).2 text
    · exact absurd newline (by decide)
  rw [linesOf, universalNewlines_id noReturn]
  clear noReturn
  induction objs with
  | nil => rfl
  | cons obj rest ih =>
    have line := fileLines_line (plain obj List.mem_cons_self).1
    have later := ih (fun o member => readable o (List.mem_cons_of_mem _ member))
      (fun o member => plain o (List.mem_cons_of_mem _ member))
    have complete : renderLine env obj = [] ∨ ∃ body, renderLine env obj = body ++ ['\n'] :=
      Or.inr ⟨_, rfl⟩
    rw [render] at later
    rw [render, List.flatMap_cons, fileLines_append complete, later, renderLine, line]
    rfl

theorem contentObjects_render {objs : List Value} (readable : ∀ obj ∈ objs, Readable env.py obj)
    (dicts : ∀ obj ∈ objs, ∃ d, obj = .dict d) :
    contentObjects env (render env objs) = objs.map Except.ok := by
  have stripped : ∀ obj ∈ objs, strip (renderLine env obj) = print env.py spaced obj := by
    intro obj member
    obtain ⟨d, rfl⟩ := dicts obj member
    have empty : ∀ c ∈ ([] : List Char), isStrSpace c = true := by simp
    exact strip_print_dict env.py spaced d empty newline_space
  rw [contentObjects, linesOf_render env readable, List.filter_map, List.filter_eq_self.mpr,
    List.map_map]
  · refine List.map_congr_left fun obj member => ?_
    rw [Function.comp_apply, stripped obj member]
    exact loads_print env.py spaced_plain (readable obj member)
  · intro obj member
    obtain ⟨d, rfl⟩ := dicts obj member
    rw [Function.comp_apply, stripped _ member]
    simp [print]

/-! A key that the schema does not know. -/

theorem field_set_ne (d : Dict Value) {key other : String} (v : Value) (ne : other ≠ key)
    (read : Value → Option α) : field (d.set other v) key read = field d key read := by
  rw [field, Dict.get?_set_ne d v ne, field]

theorem fieldD_set_ne (d : Dict Value) {key other : String} (v : Value) (ne : other ≠ key)
    (read : Value → Option α) (default : α) :
    fieldD (d.set other v) key read default = fieldD d key read default := by
  rw [fieldD, Dict.get?_set_ne d v ne, fieldD]

theorem validate_set_unknown (p : Pydantic) (c : Coercions) (d : Dict Value) (v : Value) :
    validate p c (.dict (Dict.set "note" v d)) = validate p c (.dict d) := by
  rw [validate, validate]
  simp (disch := decide) only [field_set_ne, fieldD_set_ne]

theorem readObject_of {d : Dict Value} {record stored : Value} {r : DecisionRecord}
    (found : Dict.get? "record" d = some record)
    (validated : validate env.pydantic env.pydantic.python record = some r)
    (hash : Dict.get? "hash" d = some stored) :
    readObject env none (.dict d) = .ok (some (r, stored)) := by
  rw [readObject, subscript, found]
  simp only [ok_bind, modelValidate, validated, getKey, inScope, if_true, subscript, hash]

/-- A value for the key that differs from the one it has. -/
def freshNote (d : Dict Value) : Value :=
  match Dict.get? "note" d with
  | some .null => .bool true
  | _ => .null

theorem freshNote_changes {d : Dict Value} (nodup : (d.map Prod.fst).Nodup) :
    sortKeys (.dict (Dict.set "note" (freshNote d) d)) ≠ sortKeys (.dict d) := by
  intro same
  rw [sortKeys_dict, sortKeys_dict] at same
  have notes := congrArg (Dict.get? "note") (Value.dict.inj same)
  rw [get?_sortItems (set_keys_nodup "note" (freshNote d) nodup), get?_sortItems nodup,
    Dict.get?_set_self] at notes
  unfold freshNote at notes
  split at notes
  · rename_i isNull
    rw [isNull] at notes
    simp [sortKeys] at notes
  · rename_i other
    cases found : Dict.get? "note" d with
    | none => simp [found] at notes
    | some v =>
      rw [found] at notes
      have null : sortKeys v = .null := (Option.some.inj notes).symm
      cases v with
      | null => exact other found
      | list xs => rw [sortKeys_list] at null; cases null
      | dict items => rw [sortKeys_dict] at null; cases null
      | _ => cases null

theorem set_readable {d : Dict Value} (readable : Readable env.py (.dict d)) (key : String)
    {v : Value} (value : Readable env.py v) : Readable env.py (.dict (Dict.set key v d)) := by
  rw [readable_dict] at readable ⊢
  refine ⟨set_keys_nodup key v readable.1, fun item member => ?_⟩
  rcases mem_set member with rfl | old
  · exact value
  · exact readable.2 item old

theorem freshNote_readable (d : Dict Value) : Readable env.py (freshNote d) := by
  unfold freshNote
  split <;> trivial

/-- Every object that gives a row can be changed under a key of its record so that it still
    gives the same row. -/
theorem exists_altered {obj : Value} {row : ParsedRow} (readable : Readable env.py obj)
    (read : readObject env none obj = .ok (some row)) :
    ∃ obj', (∃ d, obj' = .dict d) ∧ Readable env.py obj' ∧
      readObject env none obj' = .ok (some row) ∧ protectedParts obj' ≠ protectedParts obj ∧
      sortKeys obj ≠ sortKeys obj' := by
  obtain ⟨d, record, rfl, found, validated, hash⟩ := readObject_some env read
  cases record with
  | dict inner =>
    have parts := (readable_dict env.py d).mp readable
    have innerReadable : Readable env.py (.dict inner) := parts.2 _ (Dict.mem_of_get? found)
    have innerNodup := ((readable_dict env.py inner).mp innerReadable).1
    let inner' := Dict.set "note" (freshNote inner) inner
    have readable' : Readable env.py (.dict (Dict.set "record" (.dict inner') d)) :=
      set_readable env readable _ (set_readable env innerReadable _ (freshNote_readable env inner))
    have changed : sortKeys (.dict inner') ≠ sortKeys (.dict inner) :=
      freshNote_changes innerNodup
    refine ⟨_, ⟨_, rfl⟩, readable', ?_, ?_, ?_⟩
    · refine readObject_of env (Dict.get?_set_self _ _ _) ?_ ?_
      · exact (validate_set_unknown env.pydantic env.pydantic.python inner _).trans validated
      · rw [Dict.get?_set_ne d _ (by decide), hash]
    · intro same
      have records := congrArg Prod.fst same
      simp only [protectedParts, Dict.get?_set_self, found, Option.map_some,
        Option.some.injEq] at records
      exact changed records
    · intro same
      have nodup' := ((readable_dict env.py _).mp readable').1
      rw [sortKeys_dict, sortKeys_dict] at same
      have items := congrArg (Dict.get? "record") (Value.dict.inj same)
      rw [get?_sortItems parts.1, get?_sortItems nodup', found, Dict.get?_set_self] at items
      exact changed (Option.some.inj items).symm
  | _ => cases validated

/-! Files with rows. -/

theorem contentObjects_readable (floats : FloatsReadable env.py) {content : List Char}
    {obj : Value} (member : .ok obj ∈ contentObjects env content) : Readable env.py obj := by
  obtain ⟨line, _, loaded⟩ := List.mem_map.mp member
  exact loads_readable floats loaded

/-- A file that verifies, as objects with their rows. -/
theorem intact_pairs {content : List Char}
    (intact : (EvidenceStore.jsonl content).verify env none = .ok (-1)) :
    ∃ pairs : List (Value × ParsedRow),
      contentObjects env content = pairs.map (fun x => Except.ok x.1) ∧
      (EvidenceStore.jsonl content).parsed env = pairs.map Prod.snd ∧
      ∀ x ∈ pairs, readObject env none x.1 = .ok (some x.2) := by
  obtain ⟨outcomes, _, _⟩ := ((EvidenceStore.jsonl content).verify_parsed env).mp intact
  rw [iter_objects] at outcomes
  exact objects_of_rows env outcomes

theorem tenantParts_ok (tenant : String) {obj : Value} {row : ParsedRow}
    (read : readObject env none obj = .ok (some row)) :
    tenantParts env tenant (.ok obj) =
      if tenantOf row.1 = tenant then some (protectedParts obj) else none := by
  rw [tenantParts, objectOutcome, read]

theorem same_iter {s s' : EvidenceStore} (same : s'.iter env none = s.iter env none) :
    s'.verify env none = s.verify env none ∧ s'.parsed env = s.parsed env := by
  rw [EvidenceStore.verify, EvidenceStore.verify, EvidenceStore.parsed, EvidenceStore.parsed, same]
  exact ⟨rfl, rfl⟩

/-- A file with a row has a twin that verifies with the same rows, and differs in the
    record of its first line. -/
theorem exists_twin (floats : FloatsReadable env.py) {content : List Char}
    {x : Value × ParsedRow} {rest : List (Value × ParsedRow)}
    (objects : contentObjects env content = (x :: rest).map fun x => Except.ok x.1)
    (each : ∀ y ∈ x :: rest, readObject env none y.1 = .ok (some y.2)) :
    ∃ other obj', contentObjects env other = .ok obj' :: rest.map (fun x => Except.ok x.1) ∧
      readObject env none obj' = .ok (some x.2) ∧
      (EvidenceStore.jsonl other).iter env none = (EvidenceStore.jsonl content).iter env none ∧
      protectedParts obj' ≠ protectedParts x.1 ∧ sortKeys x.1 ≠ sortKeys obj' := by
  have readable : ∀ y ∈ x :: rest, Readable env.py y.1 := by
    intro y member
    have among : .ok y.1 ∈ contentObjects env content := by
      rw [objects]
      exact List.mem_map_of_mem (f := fun x => Except.ok x.1) member
    exact contentObjects_readable env floats among
  obtain ⟨obj', dict', readable', read', parts, keys⟩ :=
    exists_altered env (readable x List.mem_cons_self) (each x List.mem_cons_self)
  have all : ∀ obj ∈ obj' :: rest.map Prod.fst, Readable env.py obj ∧ ∃ d, obj = .dict d := by
    intro obj member
    rcases List.mem_cons.mp member with rfl | later
    · exact ⟨readable', dict'⟩
    · obtain ⟨y, among, rfl⟩ := List.mem_map.mp later
      obtain ⟨d, _, shape, _⟩ := readObject_some env (each y (List.mem_cons_of_mem _ among))
      exact ⟨readable y (List.mem_cons_of_mem _ among), d, shape⟩
  have rendered := contentObjects_render env (fun obj member => (all obj member).1)
    fun obj member => (all obj member).2
  rw [List.map_cons, List.map_map] at rendered
  refine ⟨_, obj', rendered, read', ?_, parts, keys⟩
  have outcomes := rows_of_objects env each
  have each' : ∀ y ∈ (obj', x.2) :: rest, readObject env none y.1 = .ok (some y.2) := by
    intro y member
    rcases List.mem_cons.mp member with rfl | later
    · exact read'
    · exact each y (List.mem_cons_of_mem _ later)
  rw [iter_objects, iter_objects, rendered, objects, outcomes]
  exact rows_of_objects env each'

theorem not_committed (floats : FloatsReadable env.py) {content : List Char}
    (intact : (EvidenceStore.jsonl content).verify env none = .ok (-1))
    (rows : (EvidenceStore.jsonl content).parsed env ≠ []) :
    ¬Committed env content ∧ ¬EditsDetected env content := by
  obtain ⟨pairs, objects, parsed, each⟩ := intact_pairs env intact
  cases pairs with
  | nil => exact absurd parsed rows
  | cons x rest =>
    obtain ⟨other, obj', objects', read', iter', parts, keys⟩ :=
      exists_twin env floats objects each
    obtain ⟨verify', parsed'⟩ := same_iter env iter'
    rw [intact] at verify'
    constructor
    · intro committed
      have heads : ∀ tenant, (EvidenceStore.jsonl content).lastRowHash env tenant =
          (EvidenceStore.jsonl other).lastRowHash env tenant := by
        intro tenant
        rw [EvidenceStore.lastRowHash, EvidenceStore.lastRowHash, parsed']
      have same := committed other verify' heads (tenantOf x.2.1)
      have first := (tenantParts_ok env _ (each x List.mem_cons_self)).trans (if_pos rfl)
      have first' := (tenantParts_ok env _ read').trans (if_pos rfl)
      rw [tenantObjects, tenantObjects, objects, objects', List.map_cons, List.filterMap_cons,
        List.filterMap_cons, first, first'] at same
      exact parts (List.cons.inj same).1.symm
    · intro detected
      rw [List.map_cons] at objects
      exact detected other [] _ x.1 obj' objects objects' keys verify'

theorem committed_of_empty {content : List Char}
    (intact : (EvidenceStore.jsonl content).verify env none = .ok (-1))
    (rows : (EvidenceStore.jsonl content).parsed env = []) :
    Committed env content ∧ EditsDetected env content := by
  obtain ⟨pairs, objects, parsed, _⟩ := intact_pairs env intact
  rw [rows] at parsed
  have none : pairs = [] := List.map_eq_nil_iff.mp parsed.symm
  rw [none] at objects
  constructor
  · intro other intact' heads tenant
    obtain ⟨pairs', objects', parsed', each'⟩ := intact_pairs env intact'
    have noRow : tenantRows tenant (pairs'.map Prod.snd) = [] := by
      have last := heads tenant
      rw [EvidenceStore.lastRowHash, EvidenceStore.lastRowHash, rows, parsed'] at last
      have empty : (tenantRows tenant (pairs'.map Prod.snd)).getLast? = Option.none := by
        simpa [tenantRows] using last.symm
      exact List.getLast?_eq_none_iff.mp empty
    rw [tenantObjects, tenantObjects, objects, objects']
    refine (List.filterMap_eq_nil_iff.mpr fun loaded member => ?_).symm
    obtain ⟨x, among, rfl⟩ := List.mem_map.mp member
    rw [tenantParts_ok env tenant (each' x among), if_neg]
    intro mine
    have inRows : x.2 ∈ tenantRows tenant (pairs'.map Prod.snd) :=
      List.mem_filter.mpr ⟨List.mem_map_of_mem among, by simpa using mine⟩
    rw [noRow] at inRows
    cases inRows
  · intro other before after obj obj' split
    rw [objects] at split
    simp at split

/-! Scopes. -/

/-- The label by which a scope selects the object's row. -/
def objectLabel (obj : Value) (r : DecisionRecord) : Value :=
  match obj with
  | .dict d => rowLabel (Dict.getD d "tenant_id" .null) r
  | _ => .str (tenantOf r)

/-- Every label names the tenant of the hashed record. -/
def LabelsTrue (content : List Char) : Prop :=
  ∀ obj row, .ok obj ∈ contentObjects env content → readObject env none obj = .ok (some row) →
    objectLabel obj row.1 = .str (tenantOf row.1)

theorem readObject_scoped {obj : Value} {row : ParsedRow} (tenant : String)
    (read : readObject env none obj = .ok (some row)) :
    readObject env (some tenant) obj =
      .ok (if (objectLabel obj row.1).eqStr tenant then some row else none) := by
  obtain ⟨d, record, rfl, found, validated, hash⟩ := readObject_some env read
  rw [readObject, subscript, found]
  simp only [ok_bind, modelValidate, validated, getKey, inScope, subscript, hash, objectLabel]
  by_cases mine : (rowLabel (Dict.getD d "tenant_id" .null) row.1).eqStr tenant = true
  · simp only [mine, if_true]
  · simp only [mine, if_false, Bool.false_eq_true]

theorem iter_scoped {content : List Char} {pairs : List (Value × ParsedRow)}
    (objects : contentObjects env content = pairs.map fun x => Except.ok x.1)
    (each : ∀ x ∈ pairs, readObject env none x.1 = .ok (some x.2)) (tenant : String) :
    (EvidenceStore.jsonl content).iter env (some tenant) =
      ((pairs.filter fun x => (objectLabel x.1 x.2.1).eqStr tenant).map Prod.snd).map
        Except.ok := by
  rw [iter_objects, objects]
  clear objects
  induction pairs with
  | nil => rfl
  | cons x rest ih =>
    have inTenantScope := readObject_scoped env tenant (each x List.mem_cons_self)
    have later := ih fun y member => each y (List.mem_cons_of_mem _ member)
    rw [List.map_cons, List.filterMap_cons, later, List.filter_cons, loadedOutcome, objectOutcome,
      inTenantScope]
    cases (objectLabel x.1 x.2.1).eqStr tenant <;> rfl

/-- A scope shows the tenant's rows, for every tenant, exactly when the labels are true. -/
theorem scopesFaithful_iff {content : List Char}
    (intact : (EvidenceStore.jsonl content).verify env none = .ok (-1)) :
    ScopesFaithful env content ↔ LabelsTrue env content := by
  obtain ⟨pairs, objects, parsed, each⟩ := intact_pairs env intact
  have inTenantScope := iter_scoped env objects each
  have mine : ∀ tenant, tenantRows tenant (pairs.map Prod.snd) =
      (pairs.filter fun x => decide (tenantOf x.2.1 = tenant)).map Prod.snd := by
    intro tenant
    rw [tenantRows, List.filter_map]
    rfl
  constructor
  · intro faithful obj row member read
    rw [objects] at member
    obtain ⟨x, among, same⟩ := List.mem_map.mp member
    cases same
    have rowSame : x.2 = row := by
      have both := (each x among).symm.trans read
      exact Option.some.inj (Except.ok.inj both)
    subst rowSame
    have lists := faithful (tenantOf x.2.1)
    rw [inTenantScope, parsed, mine] at lists
    have rows := List.map_injective_iff.mpr (fun _ _ => Except.ok.inj) lists
    -- rows filed under the tenant belong to it, so both selections have the same places
    have subset : ∀ y ∈ pairs, (objectLabel y.1 y.2.1).eqStr (tenantOf x.2.1) = true →
        tenantOf y.2.1 = tenantOf x.2.1 := by
      intro y inside label
      have selected : y.2 ∈ (pairs.filter fun x' =>
          (objectLabel x'.1 x'.2.1).eqStr (tenantOf x.2.1)).map Prod.snd :=
        List.mem_map_of_mem (List.mem_filter.mpr ⟨inside, label⟩)
      rw [rows] at selected
      obtain ⟨z, inside', same⟩ := List.mem_map.mp selected
      rw [← same]
      exact of_decide_eq_true (List.mem_filter.mp inside').2
    have sub : (pairs.filter fun y => (objectLabel y.1 y.2.1).eqStr (tenantOf x.2.1)).Sublist
        (pairs.filter fun y => decide (tenantOf y.2.1 = tenantOf x.2.1)) := by
      have nested : pairs.filter (fun y => (objectLabel y.1 y.2.1).eqStr (tenantOf x.2.1)) =
          (pairs.filter fun y => decide (tenantOf y.2.1 = tenantOf x.2.1)).filter
            fun y => (objectLabel y.1 y.2.1).eqStr (tenantOf x.2.1) := by
        rw [List.filter_filter]
        refine List.filter_congr fun y inside => ?_
        rw [Bool.eq_iff_iff, Bool.and_eq_true, decide_eq_true_eq]
        exact ⟨fun label => ⟨label, subset y inside label⟩, And.left⟩
      rw [nested]
      exact List.filter_sublist
    have lengths := congrArg List.length rows
    rw [List.length_map, List.length_map] at lengths
    have equal := sub.eq_of_length lengths
    have inTenant : x ∈ pairs.filter fun y => decide (tenantOf y.2.1 = tenantOf x.2.1) :=
      List.mem_filter.mpr ⟨among, by simp⟩
    rw [← equal] at inTenant
    exact (eqStr_iff _ _).mp (List.mem_filter.mp inTenant).2
  · intro labels tenant
    rw [inTenantScope, parsed, mine]
    apply congrArg (fun xs => (List.map Prod.snd xs).map Except.ok)
    refine List.filter_congr fun x inside => ?_
    have among : .ok x.1 ∈ contentObjects env content := by
      rw [objects]
      exact List.mem_map_of_mem (f := fun x => Except.ok x.1) inside
    rw [labels x.1 x.2 among (each x inside), Value.eqStr, Bool.eq_iff_iff, beq_iff_eq,
      decide_eq_true_eq]

end

/-! One sample record under two labels, and with one more key. -/

def sampleItems : Dict Value := sortItems (sampleRecord (.fin 0) "d-1" (some "alpha")).items

def sampleObject (label : String) (record : Dict Value) : Value :=
  .dict [("hash", .str sampleDigest.hex), ("record", .dict record), ("tenant_id", .str label)]

def sampleFile (label : String) (record : Dict Value) : List Char :=
  render samplePlatform [sampleObject label record]

theorem sampleItems_readable : Readable sampleInterpreter (.dict sampleItems) := by
  have readable := sample_readable sample_zero "d-1" (some "alpha")
  have sorted := readable_sortKeys sampleInterpreter readable
  rw [DecisionRecord.modelDump, sortKeys_dict] at sorted
  exact sorted

theorem sampleItems_validate : ∃ r, validate samplePydantic sampleCoercions (.dict sampleItems) =
    some r ∧ tenantOf r = "alpha" ∧ canonicalJson samplePlatform r = .ok samplePayload := by
  obtain ⟨r, back, tenant, _, same⟩ := validate_settles samplePydantic sampleCoercions
    (r := sampleRecord (.fin 0) "d-1" (some "alpha")) rfl rfl
  rw [DecisionRecord.modelDump, sortKeys_dict] at back
  refine ⟨r, back, ?_, (canonicalJson_congr samplePlatform same).trans sample_canonical⟩
  rw [tenantOf, tenant]
  rfl

section
variable {record : Dict Value} (readable : Readable sampleInterpreter (.dict record))
include readable

theorem sampleFile_objects (label : String) :
    contentObjects samplePlatform (sampleFile label record) = [.ok (sampleObject label record)] := by
  have object : Readable sampleInterpreter (sampleObject label record) := by
    rw [sampleObject, readable_dict]
    refine ⟨by simp, ?_⟩
    simp only [List.forall_mem_cons]
    exact ⟨trivial, readable, trivial, by simp⟩
  refine contentObjects_render samplePlatform (fun obj member => ?_) fun obj member => ?_
  · rw [List.mem_singleton.mp member]
    exact object
  · rw [List.mem_singleton.mp member]
    exact ⟨_, rfl⟩

variable {r : DecisionRecord}
  (validated : validate samplePydantic sampleCoercions (.dict record) = some r)
include validated

theorem sampleFile_iter (label : String) :
    (EvidenceStore.jsonl (sampleFile label record)).iter samplePlatform none =
      [.ok (r, .str sampleDigest.hex)] := by
  have read := readObject_of samplePlatform (d := [("hash", .str sampleDigest.hex),
    ("record", .dict record), ("tenant_id", .str label)]) rfl validated rfl
  rw [iter_objects, sampleFile_objects readable, List.filterMap_cons, loadedOutcome, objectOutcome,
    sampleObject, read]
  rfl

variable (tenant : tenantOf r = "alpha")
  (canonical : canonicalJson samplePlatform r = .ok samplePayload)
include tenant canonical

theorem sampleFile_views (label : String) :
    List.Forall₂ (Views samplePlatform)
      ((EvidenceStore.jsonl (sampleFile label record)).iter samplePlatform none)
      [⟨"alpha", samplePayload, sampleDigest⟩] := by
  rw [sampleFile_iter readable validated]
  exact .cons ⟨r, rfl, tenant, canonical⟩ .nil

theorem sampleFile_intact (label : String) :
    (EvidenceStore.jsonl (sampleFile label record)).verify samplePlatform none = .ok (-1) :=
  (EvidenceStore.verify_iff samplePlatform none _).mpr
    ⟨_, sampleFile_views readable validated tenant canonical label, rfl, trivial⟩

theorem sampleFile_messages (label : String) :
    ∀ m ∈ (EvidenceStore.jsonl (sampleFile label record)).messages samplePlatform,
      m = Digest.zero.bytes ++ utf8 samplePayload := by
  intro m member
  rw [EvidenceStore.messages_eq samplePlatform
    (sampleFile_views readable validated tenant canonical label)] at member
  exact List.mem_singleton.mp member

end

theorem sampleItems_nodup : (sampleItems.map Prod.fst).Nodup :=
  ((readable_dict sampleInterpreter sampleItems).mp sampleItems_readable).1

theorem annotated_readable :
    Readable sampleInterpreter (.dict (Dict.set "note" (freshNote sampleItems) sampleItems)) :=
  set_readable samplePlatform sampleItems_readable "note"
    (freshNote_readable samplePlatform sampleItems)

/-- Of the files that verify only those without rows are protected; a scope shows the rows
    of its tenant exactly when the labels, which nothing protects, are true. -/
theorem jsonl_protected_iff (env : Platform) (floats : FloatsReadable env.py) (content : List Char)
    (intact : (EvidenceStore.jsonl content).verify env none = .ok (-1)) :
    (Committed env content ∧ EditsDetected env content ∧ ScopesFaithful env content ↔
      (EvidenceStore.jsonl content).parsed env = []) ∧
    (ScopesFaithful env content ↔ LabelsTrue env content) := by
  refine ⟨⟨?_, fun rows => ?_⟩, scopesFaithful_iff env intact⟩
  · rintro ⟨committed, _⟩
    by_contra rows
    exact (not_committed env floats intact rows).1 committed
  · obtain ⟨committed, detected⟩ := committed_of_empty env intact rows
    refine ⟨committed, detected, (scopesFaithful_iff env intact).mpr ?_⟩
    intro obj row member read
    obtain ⟨pairs, objects, parsed, _⟩ := intact_pairs env intact
    rw [rows] at parsed
    rw [objects, List.map_eq_nil_iff.mp parsed.symm] at member
    cases member

/-- A file with one row is not protected, and its scopes can be trusted as its label can. -/
theorem jsonl_protected_sample :
    ¬(Committed samplePlatform (sampleFile "alpha" sampleItems) ∧
        EditsDetected samplePlatform (sampleFile "alpha" sampleItems) ∧
        ScopesFaithful samplePlatform (sampleFile "alpha" sampleItems)) ∧
      (ScopesFaithful samplePlatform (sampleFile "alpha" sampleItems) ↔
        LabelsTrue samplePlatform (sampleFile "alpha" sampleItems)) := by
  obtain ⟨r, validated, tenant, canonical⟩ := sampleItems_validate
  have intact := sampleFile_intact sampleItems_readable validated tenant canonical "alpha"
  obtain ⟨protects, scopes⟩ := jsonl_protected_iff samplePlatform sample_floatsReadable _ intact
  refine ⟨fun held => ?_, scopes⟩
  have parsed := protects.mp held
  rw [EvidenceStore.parsed, sampleFile_iter sampleItems_readable validated] at parsed
  cases parsed

/-- A key added to the record leaves no trace in the hashes, and a row under another label
    disappears from its tenant's scope. -/
theorem jsonl_unprotected :
    let original := sampleFile "alpha" sampleItems
    let annotated := sampleFile "alpha" (Dict.set "note" (freshNote sampleItems) sampleItems)
    let relabelled := sampleFile "beta" sampleItems
    NoCollision samplePlatform {m | m ∈ (EvidenceStore.jsonl original).messages samplePlatform ∨
      m ∈ (EvidenceStore.jsonl annotated).messages samplePlatform ∨
      m ∈ (EvidenceStore.jsonl relabelled).messages samplePlatform} ∧
    (EvidenceStore.jsonl original).verify samplePlatform none = .ok (-1) ∧
    (EvidenceStore.jsonl annotated).verify samplePlatform none = .ok (-1) ∧
    (EvidenceStore.jsonl relabelled).verify samplePlatform none = .ok (-1) ∧
    (∀ tenant, (EvidenceStore.jsonl original).lastRowHash samplePlatform tenant =
      (EvidenceStore.jsonl annotated).lastRowHash samplePlatform tenant) ∧
    tenantObjects samplePlatform "alpha" original ≠
      tenantObjects samplePlatform "alpha" annotated ∧
    ¬EditsDetected samplePlatform original ∧ ¬ScopesFaithful samplePlatform relabelled := by
  intro original annotated relabelled
  obtain ⟨r, validated, tenant, canonical⟩ := sampleItems_validate
  have validated' : validate samplePydantic sampleCoercions
      (.dict (Dict.set "note" (freshNote sampleItems) sampleItems)) = some r :=
    (validate_set_unknown samplePydantic sampleCoercions sampleItems _).trans validated
  have intact' := sampleFile_intact annotated_readable validated' tenant canonical "alpha"
  have rows := sampleFile_iter sampleItems_readable validated "alpha"
  have rows' := sampleFile_iter annotated_readable validated' "alpha"
  have changed := freshNote_changes sampleItems_nodup
  refine ⟨sample_noCollision.subset samplePlatform fun m among => Or.inl ?_,
    sampleFile_intact sampleItems_readable validated tenant canonical _, intact',
    sampleFile_intact sampleItems_readable validated tenant canonical _, fun t => ?_, ?_, ?_, ?_⟩
  · rcases among with first | second | third
    · exact sampleFile_messages sampleItems_readable validated tenant canonical _ m first
    · exact sampleFile_messages annotated_readable validated' tenant canonical _ m second
    · exact sampleFile_messages sampleItems_readable validated tenant canonical _ m third
  · rw [EvidenceStore.lastRowHash, EvidenceStore.lastRowHash, EvidenceStore.parsed,
      EvidenceStore.parsed, rows, rows']
  · have read : readObject samplePlatform none (sampleObject "alpha" sampleItems) =
        .ok (some (r, .str sampleDigest.hex)) := readObject_of samplePlatform rfl validated rfl
    have read' : readObject samplePlatform none (sampleObject "alpha"
        (Dict.set "note" (freshNote sampleItems) sampleItems)) =
        .ok (some (r, .str sampleDigest.hex)) := readObject_of samplePlatform rfl validated' rfl
    rw [tenantObjects, tenantObjects, sampleFile_objects sampleItems_readable,
      sampleFile_objects annotated_readable, List.filterMap_cons, List.filterMap_cons,
      tenantParts_ok samplePlatform _ read, tenantParts_ok samplePlatform _ read', if_pos tenant,
      if_pos tenant]
    intro same
    have parts := congrArg Prod.fst (List.cons.inj same).1
    exact changed (Option.some.inj parts).symm
  · intro detected
    refine detected annotated [] [] _ _ (sampleFile_objects sampleItems_readable _)
      (sampleFile_objects annotated_readable _) ?_ intact'
    intro same
    rw [sampleObject, sampleObject, sortKeys_dict, sortKeys_dict] at same
    have items := congrArg (Dict.get? "record") (Value.dict.inj same)
    rw [get?_sortItems (by simp), get?_sortItems (by simp)] at items
    exact changed (Option.some.inj items).symm
  · intro faithful
    have visible := faithful "alpha"
    have hidden : (EvidenceStore.jsonl relabelled).iter samplePlatform (some "alpha") = [] := by
      have read : readObject samplePlatform none (sampleObject "beta" sampleItems) =
          .ok (some (r, .str sampleDigest.hex)) := readObject_of samplePlatform rfl validated rfl
      rw [iter_objects, sampleFile_objects sampleItems_readable, List.filterMap_cons,
        loadedOutcome, objectOutcome, readObject_scoped samplePlatform "alpha" read]
      rfl
    rw [hidden, EvidenceStore.parsed, sampleFile_iter sampleItems_readable validated] at visible
    have one : tenantRows "alpha" [(r, Value.str sampleDigest.hex)] =
        [(r, Value.str sampleDigest.hex)] := by
      simp [tenantRows, tenant]
    have rowsOf : List.filterMap Except.toOption
        [(Except.ok (r, Value.str sampleDigest.hex) : Outcome)] =
        [(r, Value.str sampleDigest.hex)] := rfl
    rw [rowsOf, one] at visible
    cases visible

end HorizonRic.Evidence
