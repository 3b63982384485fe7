import Mathlib.Algebra.BigOperators.Group.Finset.Basic
import Mathlib.Algebra.BigOperators.Group.Finset.Piecewise
import Mathlib.Algebra.Order.BigOperators.Group.Finset
import HorizonRic.Library.Averages

/-!
A list sorted into `n` buckets by a key, and what sums over the buckets say about the
sum over the list.
-/
namespace Buckets

variable {α : Type*} (key : α → ℕ)

def bucket (xs : List α) (k : ℕ) : List α := xs.filter fun x => key x = k

def grouped (n : ℕ) (xs : List α) : List (List α) := (List.range n).map (bucket key xs)

theorem grouped_nil (n : ℕ) : grouped key n [] = List.replicate n [] := by
  unfold grouped bucket
  simp

theorem sum_grouped {K : Type*} [AddCommMonoid K] (n : ℕ) (xs : List α) (g : List α → K) :
    ((grouped key n xs).map g).sum = ∑ k ∈ Finset.range n, g (bucket key xs k) := by
  unfold grouped
  induction n with
  | zero => simp
  | succ n ih =>
    rw [List.range_succ, List.map_append, List.map_append, List.sum_append, ih,
      Finset.sum_range_succ]
    simp

/-- One more item goes to the end of its bucket. -/
theorem modify_grouped (n : ℕ) (xs : List α) (x : α) :
    (grouped key n xs).modify (key x) (· ++ [x]) = grouped key n (xs ++ [x]) := by
  apply List.ext_getElem
  · simp [grouped]
  · intro k before after
    rw [List.getElem_modify]
    simp only [grouped, List.getElem_map, List.getElem_range, bucket, List.filter_append]
    by_cases here : key x = k
    · simp [here]
    · simp [here]

variable {K : Type*} [AddCommGroup K]

/-- Every item stands in one bucket. -/
theorem sum_buckets {n : ℕ} {xs : List α} (inside : ∀ x ∈ xs, key x < n) (f : α → K) :
    ∑ k ∈ Finset.range n, ((bucket key xs k).map f).sum = (xs.map f).sum := by
  induction xs with
  | nil => simp [bucket]
  | cons x rest ih =>
    have later := ih fun y member => inside y (List.mem_cons_of_mem x member)
    have each : ∀ k, ((bucket key (x :: rest) k).map f).sum =
        (if key x = k then f x else 0) + ((bucket key rest k).map f).sum := by
      intro k
      by_cases here : key x = k
      · simp [bucket, here]
      · simp [bucket, here]
    have first : key x ∈ Finset.range n := Finset.mem_range.mpr (inside x List.mem_cons_self)
    simp only [each]
    rw [Finset.sum_add_distrib, later, Finset.sum_ite_eq, if_pos first, List.map_cons,
      List.sum_cons]

variable [LinearOrder K]

/-- The sum of each bucket, without its sign. -/
def spread (n : ℕ) (f : α → K) (xs : List α) : K :=
  ∑ k ∈ Finset.range n, |((bucket key xs k).map f).sum|

/-- The order of the items does not matter. -/
theorem spread_perm (n : ℕ) (f : α → K) {xs ys : List α} (reordered : xs.Perm ys) :
    spread key n f xs = spread key n f ys := by
  unfold spread bucket
  apply Finset.sum_congr rfl
  intro k _
  rw [((reordered.filter _).map f).sum_eq]

variable [IsOrderedAddMonoid K]

theorem spread_nonneg (n : ℕ) (f : α → K) (xs : List α) : 0 ≤ spread key n f xs :=
  Finset.sum_nonneg fun _ _ => abs_nonneg _

theorem abs_sum_le_spread {n : ℕ} {xs : List α} (inside : ∀ x ∈ xs, key x < n) (f : α → K) :
    |(xs.map f).sum| ≤ spread key n f xs := by
  rw [← sum_buckets key inside]
  exact Finset.abs_sum_le_sum_abs _ _

theorem spread_le_sum_abs {n : ℕ} {xs : List α} (inside : ∀ x ∈ xs, key x < n) (f : α → K) :
    spread key n f xs ≤ (xs.map fun x => |f x|).sum := by
  rw [← sum_buckets key inside]
  apply Finset.sum_le_sum
  intro k _
  have triangle := Averages.abs_sum_le ((bucket key xs k).map f)
  rw [List.map_map] at triangle
  exact triangle

end Buckets
