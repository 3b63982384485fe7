import HorizonRic.Python.JsonText

/-!
The field types of the evidence models, as pydantic reads and writes them. A
value of the field's own type is kept; null is refused by a required field; a
scalar of another type goes through a conversion of the library. In JSON a float
that is not finite is written as null.
-/
namespace HorizonRic.Evidence

open Py Json

/-- The conversions of lax validation, for scalars of another type than the field's. -/
structure Coercions where
  float : Value → Option Number
  int : Value → Option Int
  bool : Value → Option Bool
  datetime : Value → Option String

/-- Pydantic: its conversions of Python values and of JSON values, whether NaN passes a
    range check, the ISO text of a date given as text, and its JSON scanner. -/
structure Pydantic where
  python : Coercions
  json : Coercions
  nanInRange : Bool
  isoOfText : String → Option String
  scanJson : String → Option Value

def isScalar : Value → Bool
  | .null => false
  | .list _ => false
  | .dict _ => false
  | _ => true

def readFloat (c : Coercions) : Value → Option Number
  | .float x => some x
  | v => if isScalar v then c.float v else none

def readInt (c : Coercions) : Value → Option Int
  | .int n => some n
  | v => if isScalar v then c.int v else none

def readBool (c : Coercions) : Value → Option Bool
  | .bool b => some b
  | v => if isScalar v then c.bool v else none

def readText : Value → Option String
  | .str s => some s
  | _ => none

def readDatetime (p : Pydantic) (c : Coercions) : Value → Option String
  | .str s => p.isoOfText s
  | v => if isScalar v then c.datetime v else none

/-- `X | None`. -/
def nullable (read : Value → Option α) : Value → Option (Option α)
  | .null => some none
  | v => (read v).map some

def readList (read : Value → Option α) : Value → Option (List α)
  | .list xs => xs.mapM read
  | _ => none

/-- `dict[str, Any]`. -/
def readDict : Value → Option (Dict Value)
  | .dict items => some items
  | _ => none

/-- `dict[str, float]`. -/
def readFloatDict (c : Coercions) : Value → Option (Dict Number)
  | .dict items => items.mapM fun item => (readFloat c item.2).map fun x => (item.1, x)
  | _ => none

/-- `Field(ge=low)`. -/
def Pydantic.atLeast (p : Pydantic) (low : ℚ) (x : Number) : Bool :=
  if x.isNan then p.nanInRange else Number.le (.fin low) x

/-- `Field(ge=0.0, le=1.0)`. -/
def Pydantic.inUnit (p : Pydantic) (x : Number) : Bool :=
  if x.isNan then p.nanInRange else Number.le (.fin 0) x && Number.le x (.fin 1)

def readUnit (p : Pydantic) (c : Coercions) (v : Value) : Option Number := do
  let x ← readFloat c v
  if p.inUnit x then some x else none

def readAtLeast (p : Pydantic) (c : Coercions) (low : ℚ) (v : Value) : Option Number := do
  let x ← readFloat c v
  if p.atLeast low x then some x else none

/-- A field without a default. -/
def field (items : Dict Value) (key : String) (read : Value → Option α) : Option α :=
  (Dict.get? key items).bind read

/-- A field with a default, which is not validated. -/
def fieldD (items : Dict Value) (key : String) (read : Value → Option α) (default : α) :
    Option α :=
  match Dict.get? key items with
  | some v => read v
  | none => some default

def jsonFloat : Number → Value
  | .fin q => .float (.fin q)
  | _ => .null

mutual
def jsonAny : Value → Value
  | .float x => jsonFloat x
  | .list xs => .list (jsonAnyList xs)
  | .dict items => .dict (jsonAnyItems items)
  | v => v

def jsonAnyList : List Value → List Value
  | [] => []
  | x :: xs => jsonAny x :: jsonAnyList xs

def jsonAnyItems : List (String × Value) → List (String × Value)
  | [] => []
  | (k, x) :: rest => (k, jsonAny x) :: jsonAnyItems rest
end

def jsonOption (write : α → Value) : Option α → Value
  | none => .null
  | some a => write a

def jsonFloatDict (items : Dict Number) : Value :=
  .dict (items.map fun item => (item.1, jsonFloat item.2))

def jsonTexts (texts : List String) : Value := .list (texts.map Value.str)

/-! What JSON keeps of a float, and of the order of keys. -/

theorem jsonFloat_cases (x : Number) :
    (∃ q, x = .fin q ∧ jsonFloat x = .float (.fin q)) ∨
      x.isFinite = false ∧ jsonFloat x = .null := by
  cases x with
  | fin q => exact Or.inl ⟨q, rfl, rfl⟩
  | nan => exact Or.inr ⟨rfl, rfl⟩
  | inf s => exact Or.inr ⟨rfl, rfl⟩

theorem sortKeys_jsonFloat (x : Number) : sortKeys (jsonFloat x) = jsonFloat x := by
  rcases jsonFloat_cases x with ⟨q, _, same⟩ | ⟨_, same⟩ <;> rw [same] <;> rfl

theorem sortKeys_jsonFloatDict (items : Dict Number) :
    sortKeys (jsonFloatDict items) = jsonFloatDict (byKey items) := by
  rw [jsonFloatDict, sortKeys_dict, sortItems, List.map_map, jsonFloatDict, ← byKey_map]
  refine congrArg (fun items => Value.dict (byKey items)) (List.map_congr_left fun item _ => ?_)
  simp [sortKeys_jsonFloat]

theorem jsonAnyList_eq (xs : List Value) : jsonAnyList xs = xs.map jsonAny := by
  induction xs with
  | nil => rfl
  | cons x xs ih => rw [jsonAnyList, ih, List.map_cons]

theorem jsonAnyItems_eq (items : Dict Value) :
    jsonAnyItems items = items.map fun item => (item.1, jsonAny item.2) := by
  induction items with
  | nil => rfl
  | cons item items ih => rw [jsonAnyItems, ih, List.map_cons]

theorem jsonAny_list (xs : List Value) : jsonAny (.list xs) = .list (xs.map jsonAny) := by
  rw [jsonAny, jsonAnyList_eq]

theorem jsonAny_dict (items : Dict Value) :
    jsonAny (.dict items) = .dict (items.map fun item => (item.1, jsonAny item.2)) := by
  rw [jsonAny, jsonAnyItems_eq]

theorem jsonAny_jsonFloat (x : Number) : jsonAny (jsonFloat x) = jsonFloat x := by
  rcases jsonFloat_cases x with ⟨q, _, same⟩ | ⟨_, same⟩ <;> rw [same] <;> rfl

theorem jsonAny_idem (v : Value) : jsonAny (jsonAny v) = jsonAny v := by
  induction v using Value.nested_induction with
  | float x => exact jsonAny_jsonFloat x
  | list xs ih =>
    rw [jsonAny_list, jsonAny_list, List.map_map]
    exact congrArg Value.list (List.map_congr_left ih)
  | dict items ih =>
    rw [jsonAny_dict, jsonAny_dict, List.map_map]
    refine congrArg Value.dict (List.map_congr_left fun item member => ?_)
    exact congrArg (Prod.mk item.1) (ih item member)
  | _ => rfl

/-- Writing as JSON and sorting the keys commute. -/
theorem jsonAny_sortKeys (v : Value) : jsonAny (sortKeys v) = sortKeys (jsonAny v) := by
  induction v using Value.nested_induction with
  | float x => exact (sortKeys_jsonFloat x).symm
  | list xs ih =>
    rw [sortKeys_list, jsonAny_list, jsonAny_list, sortKeys_list, List.map_map, List.map_map]
    exact congrArg Value.list (List.map_congr_left ih)
  | dict items ih =>
    rw [sortKeys_dict, jsonAny_dict, jsonAny_dict, sortKeys_dict, sortItems, sortItems,
      ← byKey_map, List.map_map, List.map_map]
    refine congrArg (fun items => Value.dict (byKey items))
      (List.map_congr_left fun item member => ?_)
    exact congrArg (Prod.mk item.1) (ih item member)
  | _ => rfl

theorem settled_any (v : Value) :
    sortKeys (jsonAny (sortKeys (jsonAny v))) = sortKeys (jsonAny v) := by
  rw [jsonAny_sortKeys, jsonAny_idem, sortKeys_idem]

/-! Reading back what a store keeps. -/

/-- What a store may make of JSON: lists and mappings keep their parts, the keys in any order,
    and a finite float still reads as itself where the schema has a float. -/
structure Transport (c : Coercions) (T : Value → Value) : Prop where
  null : T .null = .null
  bool : ∀ b, T (.bool b) = .bool b
  int : ∀ n, T (.int n) = .int n
  str : ∀ s, T (.str s) = .str s
  float : ∀ q, readFloat c (T (.float (.fin q))) = some (.fin q)
  list : ∀ xs, T (.list xs) = .list (xs.map T)
  dict : ∀ items, ∃ stored, T (.dict items) = .dict stored ∧
    byKey stored = byKey (items.map fun item => (item.1, T item.2))

theorem transport_sortKeys (c : Coercions) : Transport c sortKeys where
  null := rfl
  bool _ := rfl
  int _ := rfl
  str _ := rfl
  float _ := rfl
  list := sortKeys_list
  dict items := ⟨sortItems items, sortKeys_dict items, byKey_idem _⟩

/-- The value written for `a` comes back from the store as one that is written the same. -/
def Survives (T : Value → Value) (read : Value → Option α) (write : α → Value) (a : α) : Prop :=
  ∃ a', read (T (write a)) = some a' ∧ sortKeys (write a') = sortKeys (write a)

/-- The store changes nothing in a mapping but the order of keys. -/
def Keeps (T : Value → Value) (d : Dict Value) : Prop :=
  sortKeys (jsonAny (T (jsonAny (.dict d)))) = sortKeys (jsonAny (.dict d))

theorem keeps_sortKeys (d : Dict Value) : Keeps sortKeys d := settled_any (.dict d)

section
variable {T : Value → Value}

theorem survives_of_exact {read : Value → Option α} {write : α → Value} {a : α}
    (exact : read (T (write a)) = some a) : Survives T read write a := ⟨a, exact, rfl⟩

theorem nullable_solid {read : Value → Option α} {v : Value} (solid : v ≠ .null) :
    nullable read v = (read v).map some := by
  unfold nullable
  split
  · exact absurd rfl solid
  · rfl

theorem mapM_eq_some_iff {f : α → Option β} {xs : List α} {ys : List β} :
    xs.mapM f = some ys ↔ List.Forall₂ (fun x y => f x = some y) xs ys := by
  induction xs generalizing ys with
  | nil => simp [eq_comm]
  | cons x xs ih =>
    rw [List.mapM_cons, List.forall₂_cons_left_iff]
    constructor
    · intro done
      obtain ⟨y, first, more⟩ := Option.bind_eq_some_iff.mp done
      obtain ⟨ys', rest, same⟩ := Option.bind_eq_some_iff.mp more
      exact ⟨y, ys', first, ih.mp rest, (Option.some.inj same).symm⟩
    · rintro ⟨y, ys', first, rest, rfl⟩
      rw [first, ih.mpr rest]
      rfl

theorem each_of_mapM {f : α → Option β} {xs : List α} {ys : List β} (done : xs.mapM f = some ys)
    {x : α} (member : x ∈ xs) : ∃ y, f x = some y := by
  obtain ⟨y, _, found⟩ := exists_of_forall₂ (mapM_eq_some_iff.mp done) member
  exact ⟨y, found⟩

theorem forall₂_of_mem {R S : α → β → Prop} {xs : List α} {ys : List β}
    (all : List.Forall₂ R xs ys) (each : ∀ x ∈ xs, ∀ y, R x y → S x y) : List.Forall₂ S xs ys := by
  induction all with
  | nil => exact .nil
  | cons related _ ih =>
    exact .cons (each _ List.mem_cons_self _ related)
      (ih fun x later => each x (List.mem_cons_of_mem _ later))

/-- Lists that are written the same, element by element. -/
theorem sortKeys_list_congr {write : α → Value} {xs xs' : List α}
    (all : List.Forall₂ (fun x x' => sortKeys (write x') = sortKeys (write x)) xs xs') :
    sortKeys (.list (xs'.map write)) = sortKeys (.list (xs.map write)) := by
  rw [sortKeys_list, sortKeys_list, List.map_map, List.map_map]
  induction all with
  | nil => rfl
  | cons same _ ih => simp only [List.map_cons, Function.comp_apply, same, Value.list.inj ih]

theorem get?_stored {items stored : Dict Value} (nodup : (items.map Prod.fst).Nodup)
    (order : byKey stored = byKey (items.map fun item => (item.1, T item.2))) (key : String) :
    Dict.get? key stored = (Dict.get? key items).map T := by
  have perm : stored.Perm (items.map fun item => (item.1, T item.2)) :=
    (byKey_perm stored).symm.trans (order ▸ byKey_perm _)
  have keys : ((items.map fun item => (item.1, T item.2)).map Prod.fst).Nodup := by
    rwa [List.map_map]
  have keys' : (stored.map Prod.fst).Nodup := (perm.map Prod.fst).nodup_iff.mpr keys
  rw [Dict.get?_perm perm keys' key, Dict.get?_map]

theorem field_stored {items stored : Dict Value} (nodup : (items.map Prod.fst).Nodup)
    (order : byKey stored = byKey (items.map fun item => (item.1, T item.2))) {key : String}
    {v : Value} (found : Dict.get? key items = some v) (read : Value → Option α) :
    field stored key read = read (T v) := by
  rw [field, get?_stored nodup order, found]
  rfl

theorem fieldD_stored {items stored : Dict Value} (nodup : (items.map Prod.fst).Nodup)
    (order : byKey stored = byKey (items.map fun item => (item.1, T item.2))) {key : String}
    {v : Value} (found : Dict.get? key items = some v) (read : Value → Option α) (default : α) :
    fieldD stored key read default = read (T v) := by
  rw [fieldD, get?_stored nodup order, found]
  rfl

end

section
variable {c : Coercions} {T : Value → Value} (t : Transport c T)
include t

/-- A required float comes back exactly when it is finite. -/
theorem readFloat_stored (x : Number) :
    readFloat c (T (jsonFloat x)) = if x.isFinite then some x else none := by
  cases x with
  | fin q => exact t.float q
  | nan => exact congrArg (readFloat c) t.null
  | inf s => exact congrArg (readFloat c) t.null

theorem readUnit_stored (p : Pydantic) {x : Number} (range : p.inUnit x = true) :
    readUnit p c (T (jsonFloat x)) = if x.isFinite then some x else none := by
  rw [readUnit, readFloat_stored t]
  split
  · simp [range]
  · rfl

theorem readAtLeast_stored (p : Pydantic) {low : ℚ} {x : Number}
    (range : p.atLeast low x = true) :
    readAtLeast p c low (T (jsonFloat x)) = if x.isFinite then some x else none := by
  rw [readAtLeast, readFloat_stored t]
  split
  · simp [range]
  · rfl

/-- `float | None`: a float that is not finite comes back as none. -/
theorem survives_optionalFloat (x : Option Number) :
    Survives T (nullable (readFloat c)) (jsonOption jsonFloat) x := by
  have absent : nullable (readFloat c) (T .null) = some none := by
    rw [t.null]
    rfl
  cases x with
  | none => exact survives_of_exact absent
  | some x =>
    cases x with
    | fin q =>
      have back := t.float q
      have solid : T (.float (.fin q)) ≠ .null := by
        intro isNull
        rw [isNull] at back
        cases back
      apply survives_of_exact
      rw [jsonOption, jsonFloat, nullable_solid solid, back]
      rfl
    | nan => exact ⟨none, absent, rfl⟩
    | inf s => exact ⟨none, absent, rfl⟩

theorem survives_nullable {read : Value → Option α} {write : α → Value} (a : Option α)
    (some' : ∀ x, a = some x → Survives T read write x)
    (solid : ∀ x, a = some x → T (write x) ≠ .null) :
    Survives T (nullable read) (jsonOption write) a := by
  cases a with
  | none =>
    apply survives_of_exact
    rw [jsonOption, t.null]
    rfl
  | some x =>
    obtain ⟨x', back, same⟩ := some' x rfl
    refine ⟨some x', ?_, same⟩
    rw [jsonOption, nullable_solid (solid x rfl), back]
    rfl

/-- A list comes back element by element. -/
theorem readList_stored {read : Value → Option α} {write : α → Value} {R : α → α → Prop}
    (xs : List α) (each : ∀ x ∈ xs, ∃ x', read (T (write x)) = some x' ∧ R x x') :
    ∃ xs', readList read (T (.list (xs.map write))) = some xs' ∧ List.Forall₂ R xs xs' := by
  rw [t.list, List.map_map]
  induction xs with
  | nil => exact ⟨[], rfl, .nil⟩
  | cons x xs ih =>
    obtain ⟨x', back, first⟩ := each x List.mem_cons_self
    obtain ⟨xs', backs, rest⟩ := ih fun y later => each y (List.mem_cons_of_mem _ later)
    refine ⟨x' :: xs', ?_, .cons first rest⟩
    rw [readList, List.map_cons, List.mapM_cons, Function.comp_apply, back]
    rw [readList] at backs
    rw [backs]
    rfl

theorem survives_list {read : Value → Option α} {write : α → Value} (xs : List α)
    (each : ∀ x ∈ xs, Survives T read write x) :
    Survives T (readList read) (fun xs => .list (xs.map write)) xs := by
  obtain ⟨xs', back, all⟩ := readList_stored t xs each
  exact ⟨xs', back, sortKeys_list_congr all⟩

theorem readList_some {read : Value → Option α} {write : β → Value} {xs : List β} {ys : List α}
    (back : readList read (T (.list (xs.map write))) = some ys) :
    ∀ x ∈ xs, ∃ y, read (T (write x)) = some y := by
  rw [t.list, List.map_map] at back
  exact fun x member => each_of_mapM back (List.mem_map_of_mem member)

theorem readTexts (texts : List String) :
    readList readText (T (jsonTexts texts)) = some texts := by
  rw [jsonTexts, t.list, List.map_map]
  refine mapM_eq_some_iff.mpr (List.forall₂_map_left_iff.mpr (List.forall₂_same.mpr ?_))
  intro s _
  rw [Function.comp_apply, t.str]
  rfl

/-- A mapping of floats comes back, in some order, exactly when they are all finite. -/
theorem readFloatDict_stored (items : Dict Number) :
    ∃ items', readFloatDict c (T (jsonFloatDict items)) =
        (if items.all (fun item => item.2.isFinite) then some items' else none) ∧
      sortKeys (jsonFloatDict items') = sortKeys (jsonFloatDict items) := by
  obtain ⟨stored, form, order⟩ := t.dict (items.map fun item => (item.1, jsonFloat item.2))
  rw [List.map_map] at order
  have perm : stored.Perm (items.map fun item => (item.1, T (jsonFloat item.2))) :=
    (byKey_perm stored).symm.trans (order ▸ byKey_perm _)
  rw [jsonFloatDict, form, readFloatDict]
  by_cases finite : items.all (fun item => item.2.isFinite) = true
  · have each : ∀ item ∈ items, readFloat c (T (jsonFloat item.2)) = some item.2 := by
      intro item member
      rw [readFloat_stored t, if_pos (List.all_eq_true.mp finite item member)]
    let floatOf : Value → Number := fun v => (readFloat c v).getD .nan
    refine ⟨stored.map fun item => (item.1, floatOf item.2), ?_, ?_⟩
    · rw [if_pos finite]
      refine mapM_eq_some_iff.mpr (List.forall₂_map_right_iff.mpr (List.forall₂_same.mpr ?_))
      intro item member
      obtain ⟨old, among, rfl⟩ := List.mem_map.mp (perm.subset member)
      simp only [floatOf, each old among, Option.map_some, Option.getD_some]
    · rw [sortKeys_jsonFloatDict, ← jsonFloatDict, sortKeys_jsonFloatDict, byKey_map, order,
        Function.comp_def, ← byKey_map, List.map_map]
      refine congrArg (fun items => jsonFloatDict (byKey items)) ?_
      conv_rhs => rw [← List.map_id items]
      refine List.map_congr_left fun item member => ?_
      simp only [Function.comp_apply, floatOf, each item member, Option.getD_some]
      rfl
  · refine ⟨items, ?_, rfl⟩
    rw [if_neg finite]
    cases back : stored.mapM fun item => (readFloat c item.2).map fun x => (item.1, x) with
    | none => rfl
    | some items' =>
      refine absurd (List.all_eq_true.mpr fun item member => ?_) finite
      have among : (item.1, T (jsonFloat item.2)) ∈ stored :=
        perm.symm.subset
          (List.mem_map_of_mem (f := fun item => (item.1, T (jsonFloat item.2))) member)
      obtain ⟨_, found⟩ := each_of_mapM back among
      rw [readFloat_stored t] at found
      by_contra notFinite
      rw [if_neg notFinite] at found
      cases found

/-- A free-form mapping comes back as the store keeps it. -/
theorem readDict_stored (d : Dict Value) :
    ∃ d', T (jsonAny (.dict d)) = .dict d' ∧ readDict (T (jsonAny (.dict d))) = some d' := by
  obtain ⟨stored, form, _⟩ := t.dict (d.map fun item => (item.1, jsonAny item.2))
  rw [jsonAny_dict, form]
  exact ⟨stored, rfl, rfl⟩

end
end HorizonRic.Evidence
