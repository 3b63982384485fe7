import HorizonRic.Python.JsonCanonical

/-!
`json.dump` with sorted keys of any object: its JSON form, with tuples as lists
and the keys of mappings as texts, or the exception that the encoder raises.
-/
namespace Py.Json

/-- A key of a mapping. -/
inductive Key where
  | str (s : String)
  | int (n : Int)
  | bool (b : Bool)
  | float (x : Number)
  | null
  | other

/-- An object as the encoder sees it: sequences are lists and tuples, and at a refused object
    (of a type without JSON form, or inside itself) it raises. -/
inductive Object where
  | null
  | bool (b : Bool)
  | int (n : Int)
  | float (x : Number)
  | str (s : String)
  | sequence (xs : List Object)
  | dict (entries : List (Key × Object))
  | refused (e : PyErr)

namespace Key

def isStr : Key → Bool
  | .str _ => true
  | _ => false

/-- The value of a key that is a number. -/
def number : Key → Option Number
  | .int n => some (.fin n)
  | .bool b => some (.fin (if b then 1 else 0))
  | .float x => some x
  | _ => none

def le : Key → Key → Bool
  | .str s, .str t => decide (s ≤ t)
  | a, b =>
    match a.number, b.number with
    | some x, some y => !Number.lt y x
    | _, _ => true

/-- Keys of one kind have an order, and one key alone needs none. -/
def comparable (keys : List Key) : Bool :=
  keys.all isStr || keys.all (fun key => key.number.isSome) || decide (keys.length ≤ 1)

/-- The text that the encoder writes for a key. -/
def text (py : Interpreter) : Key → Except PyErr String
  | .str s => .ok s
  | .int n => intStr n
  | .bool b => .ok (if b then "true" else "false")
  | .float x => .ok (String.ofList (floatText py x))
  | .null => .ok "null"
  | .other => .error .typeError

end Key

/-- `sorted(mapping.items())`. -/
def sortedEntries {α : Type} (entries : List (Key × α)) : Except PyErr (List (Key × α)) :=
  if Key.comparable (entries.map Prod.fst) then
    .ok (entries.insertionSort fun a b => Key.le a.1 b.1 = true)
  else .error .typeError

section
variable (py : Interpreter)

/-- An entry as it is written: its key, then its value. -/
def writtenEntry (entry : Key × Except PyErr Value) : Except PyErr (String × Value) := do
  let text ← entry.1.text py
  let v ← entry.2
  .ok (text, v)

mutual
def jsonForm : Object → Except PyErr Value
  | .null => .ok .null
  | .bool b => .ok (.bool b)
  | .int n => .ok (.int n)
  | .float x => .ok (.float x)
  | .str s => .ok (.str s)
  | .sequence xs => do
    let vs ← (jsonForms xs).mapM id
    .ok (.list vs)
  | .dict entries => do
    let sorted ← sortedEntries (jsonEntries entries)
    let items ← sorted.mapM (writtenEntry py)
    .ok (.dict items)
  | .refused e => .error e

def jsonForms : List Object → List (Except PyErr Value)
  | [] => []
  | x :: xs => jsonForm x :: jsonForms xs

def jsonEntries : List (Key × Object) → List (Key × Except PyErr Value)
  | [] => []
  | (key, x) :: entries => (key, jsonForm x) :: jsonEntries entries
end

/-- `json.dump(object, f, sort_keys=True)`: what stands in the file at its end. -/
def dumpText (style : Style) (x : Object) : Except PyErr String := do
  let v ← jsonForm py x
  if v.digitsOk then .ok (String.ofList (print py style v)) else .error .valueError

end

/-! JSON values are objects, and their form has its keys sorted. -/

mutual
def Object.ofValue : Value → Object
  | .null => .null
  | .bool b => .bool b
  | .int n => .int n
  | .float x => .float x
  | .str s => .str s
  | .list xs => .sequence (Object.ofValues xs)
  | .dict items => .dict (Object.ofItems items)

def Object.ofValues : List Value → List Object
  | [] => []
  | x :: xs => Object.ofValue x :: Object.ofValues xs

def Object.ofItems : List (String × Value) → List (Key × Object)
  | [] => []
  | (key, x) :: items => (.str key, Object.ofValue x) :: Object.ofItems items
end

section
variable (py : Interpreter)

theorem jsonForms_ofValues {xs : List Value}
    (each : ∀ x ∈ xs, jsonForm py (Object.ofValue x) = .ok (sortKeys x)) :
    jsonForms py (Object.ofValues xs) = xs.map fun x => .ok (sortKeys x) := by
  induction xs with
  | nil => rfl
  | cons x xs ih =>
    obtain ⟨here, later⟩ := List.forall_mem_cons.mp each
    rw [Object.ofValues, jsonForms, here, ih later, List.map_cons]

theorem jsonEntries_ofItems {items : List (String × Value)}
    (each : ∀ item ∈ items, jsonForm py (Object.ofValue item.2) = .ok (sortKeys item.2)) :
    jsonEntries py (Object.ofItems items) =
      (items.map fun item => (item.1, sortKeys item.2)).map
        fun item => (.str item.1, .ok item.2) := by
  induction items with
  | nil => rfl
  | cons item items ih =>
    obtain ⟨here, later⟩ := List.forall_mem_cons.mp each
    obtain ⟨key, x⟩ := item
    rw [Object.ofItems, jsonEntries, here, ih later, List.map_cons, List.map_cons]

/-- Entries with string keys are sorted as the items of a mapping are. -/
theorem sortedEntries_str (items : Dict Value) :
    sortedEntries (items.map fun item =>
        (Key.str item.1, (Except.ok item.2 : Except PyErr Value))) =
      .ok ((byKey items).map fun item => (.str item.1, .ok item.2)) := by
  have strings : Key.comparable ((items.map fun item =>
      (Key.str item.1, (Except.ok item.2 : Except PyErr Value))).map Prod.fst) = true := by
    simp [Key.comparable, Key.isStr]
  rw [sortedEntries, if_pos strings, byKey]
  apply congrArg Except.ok
  refine (List.map_insertionSort (fun a b => a.1 ≤ b.1) (fun a b => Key.le a.1 b.1 = true)
    (fun item : String × Value => (Key.str item.1, (Except.ok item.2 : Except PyErr Value)))
    items ?_).symm
  intro a _ b _
  simp [Key.le]

theorem mapM_writtenEntry (items : Dict Value) :
    (items.map fun item => (Key.str item.1, (Except.ok item.2 : Except PyErr Value))).mapM
      (writtenEntry py) = .ok items := by
  rw [mapM_eq_ok_iff]
  induction items with
  | nil => exact List.Forall₂.nil
  | cons item items ih => exact List.Forall₂.cons rfl ih

theorem jsonForm_ofValue (v : Value) : jsonForm py (Object.ofValue v) = .ok (sortKeys v) := by
  induction v using Value.nested_induction with
  | list xs ih =>
    rw [Object.ofValue, jsonForm, jsonForms_ofValues py ih, sortKeys_list]
    have forms : (xs.map fun x => (Except.ok (sortKeys x) : Except PyErr Value)).mapM id =
        .ok (xs.map sortKeys) := by
      rw [mapM_eq_ok_iff]
      clear ih
      induction xs with
      | nil => exact List.Forall₂.nil
      | cons x xs ih => exact List.Forall₂.cons rfl ih
    rw [forms]
    rfl
  | dict items ih =>
    rw [Object.ofValue, jsonForm, jsonEntries_ofItems py ih, sortedEntries_str, ok_bind,
      mapM_writtenEntry, sortKeys_dict]
    rfl
  | _ => rfl

/-- Of a JSON value `json.dump` writes the text that `dumps` returns. -/
theorem dumpText_ofValue (style : Style) (v : Value) :
    dumpText py style (Object.ofValue v) = dumps py style v := by
  rw [dumpText, jsonForm_ofValue, ok_bind, digitsOk_sortKeys, dumps]

theorem jsonForm_dict {entries : List (Key × Object)} {v : Value}
    (form : jsonForm py (.dict entries) = .ok v) : ∃ d, v = .dict d := by
  rw [jsonForm] at form
  obtain ⟨_, _, written⟩ := bind_eq_ok form
  obtain ⟨items, _, same⟩ := bind_eq_ok written
  exact ⟨items, (Except.ok.inj same).symm⟩

/-- What is read back from the text is the JSON form. -/
theorem loads_dumpText {style : Style} (plain : style.Plain) {x : Object}
    (held : ∀ v, jsonForm py x = .ok v → Held py v) {text : String}
    (dumped : dumpText py style x = .ok text) :
    ∃ v, jsonForm py x = .ok v ∧ text = String.ofList (print py style v) ∧
      loads py text.toList = .ok v := by
  obtain ⟨v, form, printed⟩ := bind_eq_ok dumped
  by_cases short : v.digitsOk = true
  · rw [if_pos short] at printed
    have same := Except.ok.inj printed
    refine ⟨v, form, same.symm, ?_⟩
    rw [← same, String.toList_ofList]
    exact loads_print py plain (held v form short)
  · rw [if_neg short] at printed
    cases printed

end
end Py.Json
