import Mathlib.Algebra.BigOperators.Group.Multiset.Basic
import Mathlib.Algebra.Order.BigOperators.Group.List
import Mathlib.Algebra.Order.BigOperators.Group.Multiset
import Mathlib.Algebra.Order.Field.Basic
import Mathlib.Tactic.FieldSimp
import Mathlib.Tactic.Linarith
import Mathlib.Tactic.Ring

/-!
How far sums, averages and steps towards a target can lie from zero.
-/
namespace Averages

theorem sum_map_sub {α A : Type*} [AddCommGroup A] (f g : α → A) (xs : List α) :
    (xs.map fun x => f x - g x).sum = (xs.map f).sum - (xs.map g).sum := by
  have apart : (Multiset.map (fun x => f x - g x) (xs : Multiset α)).sum = _ :=
    Multiset.sum_map_sub
  simpa only [Multiset.map_coe, Multiset.sum_coe] using apart

/-- The triangle inequality, for a list. -/
theorem abs_sum_le {A : Type*} [AddCommGroup A] [LinearOrder A] [IsOrderedAddMonoid A]
    (xs : List A) : |xs.sum| ≤ (xs.map abs).sum := by
  have triangle := @Multiset.abs_sum_le_sum_abs A _ _ _ (xs : Multiset A)
  simpa only [Multiset.map_coe, Multiset.sum_coe] using triangle

variable {K : Type*} [Field K] [LinearOrder K] [IsStrictOrderedRing K]

theorem sum_le_of_forall {xs : List K} {bound : K} (each : ∀ x ∈ xs, x ≤ bound) :
    xs.sum ≤ xs.length * bound := by
  have most := List.sum_le_card_nsmul xs bound each
  rwa [nsmul_eq_mul] at most

/-- An average of bounded values. -/
theorem abs_mean_le {xs : List K} {bound : K} (some_ : xs ≠ []) (each : ∀ x ∈ xs, |x| ≤ bound) :
    |xs.sum / xs.length| ≤ bound := by
  have positive : (0 : K) < xs.length := Nat.cast_pos.mpr (List.length_pos_iff.mpr some_)
  have most : (xs.map abs).sum ≤ (xs.map abs).length * bound := by
    apply sum_le_of_forall
    intro y member
    obtain ⟨x, inside, rfl⟩ := List.mem_map.mp member
    exact each x inside
  rw [List.length_map] at most
  rw [abs_div, abs_of_pos positive, div_le_iff₀ positive]
  have triangle := abs_sum_le xs
  linarith

/-- A step towards a target that does not overshoot. -/
theorem abs_step_le {rate old target bound : K} (nonneg : 0 ≤ rate) (atMost : rate ≤ 1)
    (start : |old| ≤ bound) (aim : |target| ≤ bound) : |old + rate * (target - old)| ≤ bound := by
  have split : old + rate * (target - old) = (1 - rate) * old + rate * target := by ring
  have triangle := abs_add_le ((1 - rate) * old) (rate * target)
  have kept : |(1 - rate) * old| ≤ (1 - rate) * bound := by
    rw [abs_mul, abs_of_nonneg (by linarith : 0 ≤ 1 - rate)]
    exact mul_le_mul_of_nonneg_left start (by linarith)
  have moved : |rate * target| ≤ rate * bound := by
    rw [abs_mul, abs_of_nonneg nonneg]
    exact mul_le_mul_of_nonneg_left aim nonneg
  rw [split]
  linarith

/-- What is worth at most `reward` now and the discounted bound later is within the bound. -/
theorem abs_discounted_le {discount reward now later : K} (nonneg : 0 ≤ discount)
    (below : discount < 1) (paid : |now| ≤ reward) (next : |later| ≤ reward / (1 - discount)) :
    |now + discount * later| ≤ reward / (1 - discount) := by
  have gap : 1 - discount ≠ 0 := by linarith
  have fixed : reward + discount * (reward / (1 - discount)) = reward / (1 - discount) := by
    field_simp
    ring
  have triangle := abs_add_le now (discount * later)
  have scaled : |discount * later| ≤ discount * (reward / (1 - discount)) := by
    rw [abs_mul, abs_of_nonneg nonneg]
    exact mul_le_mul_of_nonneg_left next nonneg
  linarith

end Averages
