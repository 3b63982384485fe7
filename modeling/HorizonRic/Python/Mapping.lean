import Mathlib.Data.List.Nodup

/-!
Dictionaries with keys of any type, as their items in insertion order; no key
stands twice.
-/
namespace Py

structure Mapping (α β : Type) where
  items : List (α × β)
  nodup : (items.map Prod.fst).Nodup

namespace Mapping
variable {α β : Type} [DecidableEq α]

def empty : Mapping α β := ⟨[], List.nodup_nil⟩

def values (m : Mapping α β) : List β := m.items.map Prod.snd

theorem replace_keys (items : List (α × β)) (key : α) (value : β) :
    (items.map fun x => if x.1 = key then (key, value) else x).map Prod.fst =
      items.map Prod.fst := by
  rw [List.map_map]
  apply List.map_congr_left
  intro x _
  by_cases same : x.1 = key
  · simp [same]
  · simp [same]

/-- `m[key] = value`: an existing key keeps its position. -/
def set (m : Mapping α β) (key : α) (value : β) : Mapping α β :=
  if present : key ∈ m.items.map Prod.fst then
    ⟨m.items.map fun x => if x.1 = key then (key, value) else x, by
      rw [replace_keys]
      exact m.nodup⟩
  else
    ⟨m.items ++ [(key, value)], by
      rw [List.map_append, List.nodup_append]
      refine ⟨m.nodup, List.nodup_singleton key, ?_⟩
      intro a member b last same
      obtain rfl := List.mem_singleton.mp last
      exact present (same ▸ member)⟩

/-- `m.pop(key, None)`. -/
def pop (m : Mapping α β) (key : α) : Mapping α β :=
  ⟨m.items.filter fun x => x.1 ≠ key, m.nodup.sublist (List.filter_sublist.map _)⟩

theorem mem_set {m : Mapping α β} {key k : α} {value v : β} :
    (k, v) ∈ (m.set key value).items ↔ (k = key ∧ v = value) ∨ (k ≠ key ∧ (k, v) ∈ m.items) := by
  rw [set]
  split
  · rename_i present
    obtain ⟨old, among, rfl⟩ := List.mem_map.mp present
    constructor
    · intro member
      obtain ⟨x, inside, same⟩ := List.mem_map.mp member
      by_cases here : x.1 = old.1
      · rw [if_pos here] at same
        exact Or.inl ⟨(Prod.mk.inj same).1.symm, (Prod.mk.inj same).2.symm⟩
      · rw [if_neg here] at same
        subst same
        exact Or.inr ⟨here, inside⟩
    · rintro (⟨rfl, rfl⟩ | ⟨other, inside⟩)
      · exact List.mem_map.mpr ⟨old, among, if_pos rfl⟩
      · exact List.mem_map.mpr ⟨(k, v), inside, if_neg other⟩
  · rename_i absent
    simp only [List.mem_append, List.mem_singleton, Prod.mk.injEq]
    constructor
    · rintro (inside | new)
      · refine Or.inr ⟨?_, inside⟩
        rintro rfl
        exact absent (List.mem_map_of_mem inside)
      · exact Or.inl new
    · rintro (new | ⟨_, inside⟩)
      · exact Or.inr new
      · exact Or.inl inside

theorem mem_pop {m : Mapping α β} {key k : α} {v : β} :
    (k, v) ∈ (m.pop key).items ↔ k ≠ key ∧ (k, v) ∈ m.items := by
  simp [pop, and_comm]

omit [DecidableEq α] in
theorem mem_values {m : Mapping α β} {v : β} : v ∈ m.values ↔ ∃ k, (k, v) ∈ m.items := by
  simp [values]

/-- `m.get(key)`. -/
def get? (m : Mapping α β) (key : α) : Option β :=
  (m.items.find? fun x => x.1 = key).map Prod.snd

theorem get?_eq_some {m : Mapping α β} {key : α} {v : β} :
    m.get? key = some v ↔ (key, v) ∈ m.items := by
  rw [get?, Option.map_eq_some_iff]
  constructor
  · rintro ⟨x, found, rfl⟩
    have same : x.1 = key := by simpa using List.find?_some found
    rw [← same]
    exact List.mem_of_find?_eq_some found
  · intro member
    cases found : m.items.find? fun x => decide (x.1 = key) with
    | none =>
      have none_ := List.find?_eq_none.mp found _ member
      simp at none_
    | some x =>
      have same : x.1 = key := by simpa using List.find?_some found
      have inside := List.mem_of_find?_eq_some found
      refine ⟨x, rfl, ?_⟩
      have equal := List.inj_on_of_nodup_map m.nodup inside member same
      rw [equal]

theorem get?_congr {m m' : Mapping α β} {key key' : α}
    (same : ∀ v, (key, v) ∈ m.items ↔ (key', v) ∈ m'.items) : m.get? key = m'.get? key' := by
  ext v
  rw [get?_eq_some, get?_eq_some]
  exact same v

@[simp] theorem get?_empty (key : α) : (empty : Mapping α β).get? key = none := rfl

@[simp] theorem get?_set_self (m : Mapping α β) (key : α) (value : β) :
    (m.set key value).get? key = some value := by
  rw [get?_eq_some, mem_set]
  exact Or.inl ⟨rfl, rfl⟩

theorem get?_set_ne (m : Mapping α β) {key k : α} (value : β) (ne : k ≠ key) :
    (m.set key value).get? k = m.get? k := by
  apply get?_congr
  intro v
  simp [mem_set, ne]

@[simp] theorem get?_pop_self (m : Mapping α β) (key : α) : (m.pop key).get? key = none := by
  cases found : (m.pop key).get? key with
  | none => rfl
  | some v =>
    rw [get?_eq_some, mem_pop] at found
    exact absurd rfl found.1

theorem get?_pop_ne (m : Mapping α β) {key k : α} (ne : k ≠ key) :
    (m.pop key).get? k = m.get? k := by
  apply get?_congr
  intro v
  simp [mem_pop, ne]

end Mapping
end Py
