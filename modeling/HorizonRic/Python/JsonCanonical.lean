import HorizonRic.Python.JsonRoundTrip

/-!
Canonical JSON. Sorting the keys of a value changes no lookup, is idempotent and
keeps a readable value readable, so `loads` of `dumps` gives the value with its
keys sorted, and equal texts come from values that differ in key order only.
-/
namespace Py

/-- Induction on a value: lists through their elements, mappings through their items. -/
@[elab_as_elim]
theorem Value.nested_induction {motive : Value → Prop} (null : motive .null)
    (bool : ∀ b, motive (.bool b)) (int : ∀ n, motive (.int n)) (float : ∀ x, motive (.float x))
    (str : ∀ s, motive (.str s)) (list : ∀ xs, (∀ x ∈ xs, motive x) → motive (.list xs))
    (dict : ∀ entries : List (String × Value),
      (∀ item ∈ entries, motive item.2) → motive (.dict entries)) (v : Value) : motive v := by
  have bounded : ∀ size (v : Value), sizeOf v < size → motive v := by
    intro size
    induction size with
    | zero => intro v h; omega
    | succ size ih =>
      intro v small
      cases v with
      | null => exact null
      | bool b => exact bool b
      | int n => exact int n
      | float x => exact float x
      | str s => exact str s
      | list xs =>
        refine list xs fun x member => ih x ?_
        have smaller := List.sizeOf_lt_of_mem member
        simp only [Value.list.sizeOf_spec] at small
        omega
      | dict entries =>
        refine dict entries fun item member => ih item.2 ?_
        have smaller := List.sizeOf_lt_of_mem member
        have part : sizeOf item.2 < sizeOf item := by
          cases item
          simp only [Prod.mk.sizeOf_spec]
          omega
        simp only [Value.dict.sizeOf_spec] at small
        omega
  exact bounded _ v (Nat.lt_succ_self _)

namespace Dict

theorem get?_eq_none_iff (d : Dict β) (key : String) :
    get? key d = none ↔ key ∉ d.map Prod.fst := by
  induction d with
  | nil => simp
  | cons item rest ih =>
    obtain ⟨k, v⟩ := item
    by_cases same : k = key
    · simp [same]
    · simp [same, ih, Ne.symm same]

theorem get?_of_mem {d : Dict β} (nodup : (d.map Prod.fst).Nodup) {key : String} {v : β}
    (member : (key, v) ∈ d) : get? key d = some v := by
  induction d with
  | nil => cases member
  | cons item rest ih =>
    obtain ⟨k, w⟩ := item
    simp only [List.map_cons, List.nodup_cons] at nodup
    rcases List.mem_cons.mp member with same | later
    · cases same
      simp
    · have ne : k ≠ key := by
        rintro rfl
        exact nodup.1 (List.mem_map_of_mem (f := Prod.fst) later)
      rw [get?_cons, if_neg ne, ih nodup.2 later]

/-- Lookups in a mapping with distinct keys do not see the order of its items. -/
theorem get?_perm {d e : Dict β} (perm : d.Perm e) (nodup : (d.map Prod.fst).Nodup)
    (key : String) : get? key d = get? key e := by
  have nodup' : (e.map Prod.fst).Nodup := (perm.map Prod.fst).nodup_iff.mp nodup
  cases found : get? key d with
  | none =>
    have absent := (get?_eq_none_iff d key).mp found
    refine ((get?_eq_none_iff e key).mpr ?_).symm
    intro member
    exact absent ((perm.map Prod.fst).symm.subset member)
  | some v => exact (get?_of_mem nodup' (perm.subset (mem_of_get? found))).symm

theorem get?_map (d : Dict β) (f : β → γ) (key : String) :
    get? key (d.map fun item => (item.1, f item.2)) = (get? key d).map f := by
  induction d with
  | nil => rfl
  | cons item rest ih =>
    obtain ⟨k, v⟩ := item
    simp only [List.map_cons, get?_cons, ih]
    split <;> rfl

end Dict

namespace Json

theorem sortKeysList_eq (xs : List Value) : sortKeysList xs = xs.map sortKeys := by
  induction xs with
  | nil => rfl
  | cons x xs ih => rw [sortKeysList, ih, List.map_cons]

theorem sortKeysItems_eq (items : List (String × Value)) :
    sortKeysItems items = items.map fun item => (item.1, sortKeys item.2) := by
  induction items with
  | nil => rfl
  | cons item items ih => rw [sortKeysItems, ih, List.map_cons]

/-- Items in key order. -/
def byKey (items : Dict β) : Dict β := items.insertionSort fun a b => a.1 ≤ b.1

/-- The items of a mapping, sorted, with sorted values. -/
def sortItems (items : Dict Value) : Dict Value :=
  byKey (items.map fun item => (item.1, sortKeys item.2))

theorem sortKeys_list (xs : List Value) : sortKeys (.list xs) = .list (xs.map sortKeys) := by
  rw [sortKeys, sortKeysList_eq]

theorem sortKeys_dict (items : Dict Value) : sortKeys (.dict items) = .dict (sortItems items) := by
  rw [sortKeys, sortKeysItems_eq]
  rfl

theorem byKey_perm (items : Dict β) : (byKey items).Perm items :=
  List.perm_insertionSort _ items

theorem byKey_map (items : Dict β) (f : β → γ) :
    byKey (items.map fun item => (item.1, f item.2)) =
      (byKey items).map fun item => (item.1, f item.2) := by
  refine (List.map_insertionSort (fun a b => a.1 ≤ b.1) (fun a b => a.1 ≤ b.1)
    (fun item : String × β => (item.1, f item.2)) items ?_).symm
  exact fun _ _ _ _ => Iff.rfl

theorem byKey_idem (items : Dict β) : byKey (byKey items) = byKey items := by
  apply List.Pairwise.insertionSort_eq
  exact List.pairwise_insertionSort _ items

theorem sortItems_perm (items : Dict Value) :
    (sortItems items).Perm (items.map fun item => (item.1, sortKeys item.2)) :=
  byKey_perm _

theorem sortItems_keys (items : Dict Value) :
    ((sortItems items).map Prod.fst).Perm (items.map Prod.fst) := by
  have keys := (sortItems_perm items).map Prod.fst
  rwa [List.map_map] at keys

theorem get?_sortItems {items : Dict Value} (nodup : (items.map Prod.fst).Nodup) (key : String) :
    Dict.get? key (sortItems items) = (Dict.get? key items).map sortKeys := by
  have nodup' : ((sortItems items).map Prod.fst).Nodup :=
    (sortItems_keys items).nodup_iff.mpr nodup
  rw [Dict.get?_perm (sortItems_perm items) nodup' key, Dict.get?_map]

theorem sortKeys_idem (v : Value) : sortKeys (sortKeys v) = sortKeys v := by
  induction v using Value.nested_induction with
  | list xs ih =>
    rw [sortKeys_list, sortKeys_list, List.map_map]
    exact congrArg Value.list (List.map_congr_left ih)
  | dict items ih =>
    rw [sortKeys_dict, sortKeys_dict]
    apply congrArg Value.dict
    have inner : items.map (fun item => (item.1, sortKeys (sortKeys item.2))) =
        items.map fun item => (item.1, sortKeys item.2) :=
      List.map_congr_left fun item member => by rw [ih item member]
    calc sortItems (sortItems items)
        = byKey (byKey ((items.map fun item => (item.1, sortKeys item.2)).map
            fun item => (item.1, sortKeys item.2))) := by
          rw [byKey_map]; rfl
      _ = byKey (items.map fun item => (item.1, sortKeys (sortKeys item.2))) := by
          rw [byKey_idem, List.map_map]; rfl
      _ = sortItems items := by rw [inner]; rfl
  | _ => rfl

section
variable (py : Interpreter)

theorem readableList_iff (xs : List Value) :
    ReadableList py xs ↔ ∀ x ∈ xs, Readable py x := by
  induction xs with
  | nil => simp [ReadableList]
  | cons x xs ih => simp [ReadableList, ih]

theorem readableItems_iff (items : List (String × Value)) :
    ReadableItems py items ↔ ∀ item ∈ items, Readable py item.2 := by
  induction items with
  | nil => simp [ReadableItems]
  | cons item items ih => simp [ReadableItems, ih]

theorem digitsOkList_iff (xs : List Value) :
    Value.digitsOkList xs = true ↔ ∀ x ∈ xs, x.digitsOk = true := by
  induction xs with
  | nil => simp [Value.digitsOkList]
  | cons x xs ih => simp [Value.digitsOkList, ih]

theorem digitsOkItems_iff (items : List (String × Value)) :
    Value.digitsOkItems items = true ↔ ∀ item ∈ items, item.2.digitsOk = true := by
  induction items with
  | nil => simp [Value.digitsOkItems]
  | cons item items ih => simp [Value.digitsOkItems, ih]

theorem readable_list (xs : List Value) :
    Readable py (.list xs) ↔ ∀ x ∈ xs, Readable py x := by
  rw [Readable, readableList_iff]

theorem readable_dict (items : Dict Value) :
    Readable py (.dict items) ↔
      (items.map Prod.fst).Nodup ∧ ∀ item ∈ items, Readable py item.2 := by
  rw [Readable, readableItems_iff]

theorem readable_sortKeys {v : Value} (readable : Readable py v) : Readable py (sortKeys v) := by
  induction v using Value.nested_induction with
  | list xs ih =>
    rw [readable_list] at readable
    rw [sortKeys_list, readable_list]
    intro x member
    obtain ⟨y, old, rfl⟩ := List.mem_map.mp member
    exact ih y old (readable y old)
  | dict items ih =>
    rw [readable_dict] at readable
    rw [sortKeys_dict, readable_dict]
    refine ⟨(sortItems_keys items).nodup_iff.mpr readable.1, fun item member => ?_⟩
    obtain ⟨old, among, rfl⟩ := List.mem_map.mp ((sortItems_perm items).subset member)
    exact ih old among (readable.2 old among)
  | _ => exact readable

theorem readable_digitsOk {v : Value} (readable : Readable py v) : v.digitsOk = true := by
  induction v using Value.nested_induction with
  | int n => exact readable
  | list xs ih =>
    rw [readable_list] at readable
    rw [Value.digitsOk, digitsOkList_iff]
    exact fun x member => ih x member (readable x member)
  | dict items ih =>
    rw [readable_dict] at readable
    rw [Value.digitsOk, digitsOkItems_iff]
    exact fun item member => ih item member (readable.2 item member)
  | _ => rfl

theorem digitsOk_sortKeys (v : Value) : (sortKeys v).digitsOk = v.digitsOk := by
  induction v using Value.nested_induction with
  | list xs ih =>
    rw [sortKeys_list, Bool.eq_iff_iff, Value.digitsOk, Value.digitsOk, digitsOkList_iff,
      digitsOkList_iff, List.forall_mem_map]
    exact ⟨fun h x member => ih x member ▸ h x member, fun h x member => (ih x member).symm ▸ h x member⟩
  | dict items ih =>
    rw [sortKeys_dict, Bool.eq_iff_iff, Value.digitsOk, Value.digitsOk, digitsOkItems_iff,
      digitsOkItems_iff]
    constructor
    · intro h item member
      rw [← ih item member]
      exact h _ ((sortItems_perm items).symm.subset
        (List.mem_map_of_mem (f := fun item => (item.1, sortKeys item.2)) member))
    · intro h item member
      obtain ⟨old, among, rfl⟩ := List.mem_map.mp ((sortItems_perm items).subset member)
      rw [ih old among]
      exact h old among
  | _ => rfl

/-- A value Python can hold: mappings with distinct keys, and floats whose text reads back.
    Nothing is asked of a value with an integer too long to print. -/
def Held (v : Value) : Prop := v.digitsOk = true → Readable py v

theorem dumps_readable (style : Style) {v : Value} (readable : Readable py v) :
    dumps py style v = .ok (String.ofList (print py style (sortKeys v))) := by
  rw [dumps, if_pos (readable_digitsOk py readable)]

/-- `loads(dumps(value, sort_keys=True))`. -/
theorem loads_dumps {style : Style} (plain : style.Plain) {v : Value} (readable : Readable py v)
    {text : String} (dumped : dumps py style v = .ok text) :
    loads py text.toList = .ok (sortKeys v) := by
  rw [dumps_readable py style readable] at dumped
  cases dumped
  rw [String.toList_ofList]
  exact loads_print py plain (readable_sortKeys py readable)

/-- Equal texts, equal values up to the order of keys. -/
theorem dumps_injective {style : Style} (plain : style.Plain) {v w : Value}
    (hv : Readable py v) (hw : Readable py w) (same : dumps py style v = dumps py style w) :
    sortKeys v = sortKeys w := by
  have left := loads_dumps py plain hv (dumps_readable py style hv)
  have right := loads_dumps py plain hw (same ▸ dumps_readable py style hv)
  exact Except.ok.inj (left.symm.trans right)

end
end Json
end Py
