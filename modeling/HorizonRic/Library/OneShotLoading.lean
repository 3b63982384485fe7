import Mathlib.Logic.Function.Basic
import Mathlib.Data.List.Basic

/-!
A table filled once from a list of items. An item whose key is taken by another
value clashes; a loader that stops at the first clash loses every later item
whose key is still free.
-/
namespace OneShotLoading

variable {κ ω : Type}

/-- Registered to another value. -/
def Clashes (table : κ → Option ω) (item : κ × ω) : Prop :=
  ∃ other ∈ table item.1, other ≠ item.2

theorem not_clashes_iff {table : κ → Option ω} {item : κ × ω} :
    ¬Clashes table item ↔ table item.1 = none ∨ table item.1 = some item.2 := by
  unfold Clashes
  cases table item.1 with
  | none => simp
  | some other => simp

instance [DecidableEq ω] (table : κ → Option ω) (item : κ × ω) : Decidable (Clashes table item) :=
  match same : table item.1 with
  | none => isFalse (by simp [Clashes, same])
  | some other => decidable_of_iff (other ≠ item.2) (by simp [Clashes, same])

variable [DecidableEq κ]

def put (table : κ → Option ω) (item : κ × ω) : κ → Option ω :=
  Function.update table item.1 (some item.2)

theorem put_self (table : κ → Option ω) (item : κ × ω) : put table item item.1 = some item.2 :=
  Function.update_self _ _ _

theorem put_other (table : κ → Option ω) (item : κ × ω) {key : κ} (ne : key ≠ item.1) :
    put table item key = table key := Function.update_of_ne ne _ _

theorem put_keeps {table : κ → Option ω} {item : κ × ω} (free : ¬Clashes table item) {key : κ}
    {value : ω} (held : table key = some value) : put table item key = some value := by
  by_cases same : key = item.1
  · subst same
    rcases not_clashes_iff.mp free with none_ | same
    · rw [none_] at held
      cases held
    · rw [put_self, ← held, same]
  · rw [put_other table item same, held]

variable [DecidableEq ω]

/-- The table when the loader has come to its end or to a clash. -/
def load (table : κ → Option ω) : List (κ × ω) → (κ → Option ω)
  | [] => table
  | item :: items => if Clashes table item then table else load (put table item) items

/-- The items that do not clash, if the loader passes over those that do. -/
def admitted (table : κ → Option ω) : List (κ × ω) → List (κ × ω)
  | [] => []
  | item :: items =>
    if Clashes table item then admitted table items else item :: admitted (put table item) items

/-- After the first item that clashes, every key is taken already. -/
def Lossless (table : κ → Option ω) : List (κ × ω) → Prop
  | [] => True
  | item :: items =>
    if Clashes table item then ∀ later ∈ items, table later.1 ≠ none
    else Lossless (put table item) items

/-- The loader overwrites nothing. -/
theorem load_keeps {items : List (κ × ω)} {table : κ → Option ω} {key : κ} {value : ω}
    (held : table key = some value) : load table items key = some value := by
  induction items generalizing table with
  | nil => exact held
  | cons item items ih =>
    unfold load
    by_cases clash : Clashes table item
    · rw [if_pos clash, held]
    · rw [if_neg clash]
      exact ih (put_keeps clash held)

/-- A free key that an item asks for is the key of an admitted item. -/
theorem exists_admitted {items : List (κ × ω)} {table : κ → Option ω} {item : κ × ω}
    (member : item ∈ items) (free : table item.1 = none) :
    ∃ taken ∈ admitted table items, taken.1 = item.1 := by
  induction items generalizing table with
  | nil => cases member
  | cons first items ih =>
    unfold admitted
    by_cases same : first.1 = item.1
    · have noClash : ¬Clashes table first := not_clashes_iff.mpr (Or.inl (by rw [same, free]))
      rw [if_neg noClash]
      exact ⟨first, List.mem_cons_self, same⟩
    · have later : item ∈ items := by
        rcases List.mem_cons.mp member with rfl | later
        · exact absurd rfl same
        · exact later
      by_cases clash : Clashes table first
      · rw [if_pos clash]
        exact ih later free
      · rw [if_neg clash]
        have stillFree : put table first item.1 = none := by
          rw [put_other table first (Ne.symm same), free]
        obtain ⟨taken, among, key⟩ := ih later stillFree
        exact ⟨taken, List.mem_cons_of_mem _ among, key⟩

/-- Where every key is taken, an item that does not clash is in the table already. -/
theorem admitted_of_taken {items : List (κ × ω)} {table : κ → Option ω}
    (taken : ∀ item ∈ items, table item.1 ≠ none) :
    ∀ item ∈ admitted table items, table item.1 = some item.2 := by
  induction items with
  | nil => simp [admitted]
  | cons first items ih =>
    obtain ⟨here, later⟩ := List.forall_mem_cons.mp taken
    unfold admitted
    by_cases clash : Clashes table first
    · rw [if_pos clash]
      exact ih later
    · have held := (not_clashes_iff.mp clash).resolve_left here
      have same : put table first = table := by
        unfold put
        rw [← held, Function.update_eq_self]
      rw [if_neg clash, same]
      exact List.forall_mem_cons.mpr ⟨held, ih later⟩

/-- The loader registers every item that does not clash exactly where it is lossless. -/
theorem load_admitted_iff (items : List (κ × ω)) (table : κ → Option ω) :
    (∀ item ∈ admitted table items, load table items item.1 = some item.2) ↔
      Lossless table items := by
  induction items generalizing table with
  | nil => simp [admitted, Lossless]
  | cons first items ih =>
    unfold admitted load Lossless
    by_cases clash : Clashes table first
    · simp only [clash, if_true]
      constructor
      · intro all later member free
        obtain ⟨taken, among, key⟩ := exists_admitted member free
        have held := all taken among
        rw [key, free] at held
        cases held
      · exact admitted_of_taken
    · simp only [clash, if_false]
      rw [List.forall_mem_cons, ← ih]
      exact and_iff_right (load_keeps (put_self table first))

/-! Lookups that load first, once. -/

section
variable {σ ε query answer : Type} (maybeLoad : σ → σ × Except ε Unit)
  (read : σ → query → Except ε answer)

/-- A lookup raises what the loading raises. -/
def lookup (s : σ) (q : query) : σ × Except ε answer :=
  match maybeLoad s with
  | (s, .error e) => (s, .error e)
  | (s, .ok ()) => (s, read s q)

def afterLookups (s : σ) (queries : List query) : σ :=
  queries.foldl (fun s q => (lookup maybeLoad read s q).1) s

theorem lookup_state (s : σ) (q : query) : (lookup maybeLoad read s q).1 = (maybeLoad s).1 := by
  unfold lookup
  split
  · rename_i loaded
    rw [loaded]
  · rename_i loaded
    rw [loaded]

/-- A loading that sets a flag, and does nothing where the flag is set, happens once. -/
theorem once_of_flag (flag : σ → Bool) (sets : ∀ s, flag (maybeLoad s).1 = true)
    (skips : ∀ s, flag s = true → (maybeLoad s).1 = s) (s : σ) :
    (maybeLoad (maybeLoad s).1).1 = (maybeLoad s).1 := skips _ (sets s)

/-- The first lookup decides what is there for all later ones. -/
theorem afterLookups_cons (once : ∀ s, (maybeLoad (maybeLoad s).1).1 = (maybeLoad s).1) (s : σ)
    (q : query) (queries : List query) :
    afterLookups maybeLoad read s (q :: queries) = (maybeLoad s).1 := by
  unfold afterLookups
  rw [List.foldl_cons, lookup_state]
  induction queries with
  | nil => rfl
  | cons q queries ih =>
    rw [List.foldl_cons, lookup_state, once]
    exact ih

end

end OneShotLoading
