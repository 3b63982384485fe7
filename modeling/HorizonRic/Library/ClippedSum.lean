import Mathlib.Analysis.Normed.Module.Basic
import Mathlib.Analysis.Normed.Group.Basic
import Mathlib.Tactic.FieldSimp

/-!
Sums of vectors that are cut off at a norm first, and how far one summand can
move them.
-/
namespace ClippedSum
variable {E : Type*} [NormedAddCommGroup E] [NormedSpace ℝ E] {bound : ℝ}

/-- The vector, scaled down to the norm `bound` if it is longer. -/
noncomputable def clip (bound : ℝ) (v : E) : E := if ‖v‖ ≤ bound then v else (bound / ‖v‖) • v

/-- The sum of the clipped vectors. -/
noncomputable def total (bound : ℝ) (vs : List E) : E := (vs.map (clip bound)).sum

theorem clip_of_le {v : E} (short : ‖v‖ ≤ bound) : clip bound v = v := if_pos short

theorem norm_clip_le (nonneg : 0 ≤ bound) (v : E) : ‖clip bound v‖ ≤ bound := by
  by_cases short : ‖v‖ ≤ bound
  · rw [clip_of_le short]
    exact short
  · have positive : 0 < ‖v‖ := lt_of_le_of_lt nonneg (not_le.mp short)
    rw [clip, if_neg short, norm_smul, Real.norm_of_nonneg (div_nonneg nonneg positive.le),
      div_mul_cancel₀ _ positive.ne']

/-- A summand more moves the sum by a clipped vector. -/
theorem total_insert (before after : List E) (a : E) :
    total bound (before ++ a :: after) = total bound (before ++ after) + clip bound a := by
  simp only [total, List.map_append, List.map_cons, List.sum_append, List.sum_cons]
  abel

theorem norm_insert_le (nonneg : 0 ≤ bound) (before after : List E) (a : E) :
    ‖total bound (before ++ a :: after) - total bound (before ++ after)‖ ≤ bound := by
  rw [total_insert, add_sub_cancel_left]
  exact norm_clip_le nonneg a

theorem norm_replace_le (nonneg : 0 ≤ bound) (before after : List E) (a b : E) :
    ‖total bound (before ++ a :: after) - total bound (before ++ b :: after)‖ ≤ 2 * bound := by
  rw [total_insert, total_insert, add_sub_add_left_eq_sub, two_mul]
  exact (norm_sub_le _ _).trans (add_le_add (norm_clip_le nonneg a) (norm_clip_le nonneg b))

omit [NormedSpace ℝ E] in
/-- A shift of the noise moves one sum to another exactly if it is their difference. -/
theorem sum_shift_iff {s s' v : E} : (∀ x, s + x = s' + (x + v)) ↔ v = s - s' := by
  constructor
  · intro all
    have here := all 0
    rw [add_zero, zero_add] at here
    rw [here, add_sub_cancel_left]
  · rintro rfl x
    abel

/-- Averages over different numbers of summands weigh the noise differently. -/
theorem average_shift_count {s s' v : E} {n m : ℕ} [Nontrivial E]
    (all : ∀ x, (n : ℝ)⁻¹ • (s + x) = (m : ℝ)⁻¹ • (s' + (x + v))) : n = m := by
  obtain ⟨x, other⟩ := exists_ne (0 : E)
  have moved := all x
  have still := all 0
  rw [add_zero, zero_add] at still
  rw [smul_add, still, add_comm x v, ← add_assoc, smul_add _ (s' + v) x, add_right_inj] at moved
  have scales := smul_left_injective ℝ other moved
  exact Nat.cast_injective (inv_injective scales)

end ClippedSum
