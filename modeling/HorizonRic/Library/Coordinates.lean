import Mathlib.Data.Int.ModEq
import Mathlib.Tactic.Ring
import Mathlib.Algebra.BigOperators.Group.List.Basic
import Mathlib.Data.Finset.Card
import Mathlib.Data.Finset.Range

/-!
Vectors given by their coordinates, and folds that reduce modulo `m` at every
step. A fold that adds and reduces stays congruent to the plain sum, one that
multiplies and reduces to the plain product, wherever the reductions stand.
-/
namespace Coordinates

/-- The vector of length `n` with the given coordinates. -/
def tabulate (n : ℕ) (f : ℕ → α) : List α := (List.range n).map f

@[simp] theorem length_tabulate (n : ℕ) (f : ℕ → α) : (tabulate n f).length = n := by
  simp [tabulate]

@[simp] theorem map_tabulate (g : α → β) (n : ℕ) (f : ℕ → α) :
    (tabulate n f).map g = tabulate n (fun i => g (f i)) := by
  simp [tabulate, Function.comp_def]

@[simp] theorem zipWith_tabulate (g : α → β → γ) (n : ℕ) (f : ℕ → α) (h : ℕ → β) :
    List.zipWith g (tabulate n f) (tabulate n h) = tabulate n (fun i => g (f i) (h i)) := by
  simp [tabulate, List.zipWith_map]

theorem getElem?_tabulate {n i : ℕ} (f : ℕ → α) (bound : i < n) :
    (tabulate n f)[i]? = some (f i) := by
  simp [tabulate, bound]

theorem modify_tabulate (n : ℕ) (f : ℕ → α) (g : α → α) (e : ℕ) :
    (tabulate n f).modify e g = tabulate n fun k => if k = e then g (f k) else f k := by
  apply List.ext_getElem
  · simp
  · intro k inside _
    simp only [List.getElem_modify, tabulate, List.getElem_map, List.getElem_range, eq_comm]

theorem tabulate_congr {n : ℕ} {f g : ℕ → α} (same : ∀ i < n, f i = g i) :
    tabulate n f = tabulate n g := by
  simp only [tabulate, List.map_inj_left, List.mem_range]
  exact same

theorem eq_tabulate (v : List α) (default : α) :
    v = tabulate v.length (fun i => v.getD i default) := by
  apply List.ext_getElem
  · simp
  · intro i hi _
    simp [tabulate, hi]

theorem foldl_zipWith_tabulate (g : α → α → α) (n : ℕ) (fs : List (ℕ → α)) (f : ℕ → α) :
    (fs.map (tabulate n)).foldl (List.zipWith g) (tabulate n f) =
      tabulate n (fun i => (fs.map fun h => h i).foldl g (f i)) := by
  induction fs generalizing f with
  | nil => rfl
  | cons h rest ih =>
    simp only [List.map_cons, List.foldl_cons, zipWith_tabulate]
    exact ih _

theorem map_set_same {xs : List α} {k : ℕ} {a b : α} (f : α → β) (found : xs[k]? = some a)
    (same : f b = f a) : (xs.set k b).map f = xs.map f := by
  obtain ⟨inside, entry⟩ := List.getElem?_eq_some_iff.mp found
  rw [List.map_set, same, ← entry]
  apply List.ext_getElem?
  intro j
  by_cases here : k = j
  · subst here
    simp [inside]
  · simp [List.getElem?_set_ne here]

/-- Positions whose entries all pass a test are no more than the entries that do. -/
theorem card_le_countP (xs : List α) (default : α) (test : α → Bool) {positions : Finset ℕ}
    (inside : ∀ i ∈ positions, i < xs.length)
    (pass : ∀ i ∈ positions, test (xs.getD i default) = true) :
    positions.card ≤ xs.countP test := by
  have counted : xs.countP test =
      ((Finset.range xs.length).filter fun i => test (xs.getD i default) = true).card := by
    conv_lhs => rw [eq_tabulate xs default, tabulate, List.countP_map]
    simp [List.countP_eq_length_filter, Finset.card_def, Finset.filter_val, Finset.range_val,
      Multiset.range, Function.comp_def]
  rw [counted]
  apply Finset.card_le_card
  intro i member
  exact Finset.mem_filter.mpr ⟨Finset.mem_range.mpr (inside i member), pass i member⟩

/-- Sums may be reduced at any step. -/
theorem foldl_add_emod (m : ℤ) (xs : List ℤ) (start : ℤ) :
    xs.foldl (fun acc x => (acc + x) % m) start ≡ start + xs.sum [ZMOD m] := by
  induction xs generalizing start with
  | nil => simp [Int.ModEq.refl]
  | cons x rest ih =>
    simp only [List.foldl_cons, List.sum_cons]
    calc rest.foldl (fun acc x => (acc + x) % m) ((start + x) % m)
        ≡ (start + x) % m + rest.sum [ZMOD m] := ih _
      _ ≡ (start + x) + rest.sum [ZMOD m] := (Int.mod_modEq _ _).add_right _
      _ = start + (x + rest.sum) := by ring

theorem foldl_mul_emod (m : ℤ) (xs : List ℤ) (start : ℤ) :
    xs.foldl (fun acc x => acc * x % m) start ≡ start * xs.prod [ZMOD m] := by
  induction xs generalizing start with
  | nil => simp [Int.ModEq.refl]
  | cons x rest ih =>
    simp only [List.foldl_cons, List.prod_cons]
    calc rest.foldl (fun acc x => acc * x % m) (start * x % m)
        ≡ (start * x % m) * rest.prod [ZMOD m] := ih _
      _ ≡ (start * x) * rest.prod [ZMOD m] := (Int.mod_modEq _ _).mul_right _
      _ = start * (x * rest.prod) := by ring

theorem foldl_mul_reduced {m : ℤ} (xs : List ℤ) {start : ℤ} (reduced : start % m = start) :
    xs.foldl (fun acc x => acc * x % m) start % m = xs.foldl (fun acc x => acc * x % m) start := by
  induction xs generalizing start with
  | nil => exact reduced
  | cons x rest ih => exact ih (Int.emod_emod _ _)

theorem foldl_add_reduced {m : ℤ} (xs : List ℤ) {start : ℤ} (reduced : start % m = start) :
    xs.foldl (fun acc x => (acc + x) % m) start % m =
      xs.foldl (fun acc x => (acc + x) % m) start := by
  induction xs generalizing start with
  | nil => exact reduced
  | cons x rest ih => exact ih (Int.emod_emod _ _)

theorem sum_modEq (m : ℤ) (xs : List α) {f g : α → ℤ} (same : ∀ x ∈ xs, f x ≡ g x [ZMOD m]) :
    (xs.map f).sum ≡ (xs.map g).sum [ZMOD m] := by
  induction xs with
  | nil => exact Int.ModEq.refl _
  | cons x rest ih =>
    simp only [List.map_cons, List.sum_cons]
    exact (same x List.mem_cons_self).add
      (ih fun y member => same y (List.mem_cons_of_mem _ member))

end Coordinates
