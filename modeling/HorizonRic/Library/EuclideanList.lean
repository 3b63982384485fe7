import Mathlib.Analysis.InnerProductSpace.PiL2

/-!
Lists of `d` real numbers as vectors of the Euclidean space: sums of products
are inner products, and entrywise operations are those of the space.
-/
namespace EuclideanList
open scoped RealInnerProductSpace

/-- The vector of the first `d` entries. -/
noncomputable def toVec (d : ℕ) (u : List ℝ) : EuclideanSpace ℝ (Fin d) :=
  WithLp.toLp _ fun i => u.getD i 0

variable {d : ℕ}

@[simp] theorem toVec_apply (u : List ℝ) (i : Fin d) : toVec d u i = u.getD i 0 := rfl

theorem sum_eq (u : List ℝ) (length : u.length = d) : u.sum = ∑ i : Fin d, u.getD i 0 := by
  subst length
  conv_lhs => rw [← @List.ofFn_getElem ℝ u]
  simp

theorem inner_toVec {u v : List ℝ} (hu : u.length = d) (hv : v.length = d) :
    ⟪toVec d u, toVec d v⟫ = (List.zipWith (· * ·) u v).sum := by
  rw [sum_eq (d := d) _ (by simp [hu, hv]), PiLp.inner_apply]
  refine Finset.sum_congr rfl fun i _ => ?_
  have hi : (i : ℕ) < u.length := by omega
  have hi' : (i : ℕ) < v.length := by omega
  simp [List.getD_eq_getElem?_getD, hi, hi', mul_comm]

theorem norm_toVec {u : List ℝ} (length : u.length = d) :
    ‖toVec d u‖ = Real.sqrt (u.map (· ^ 2)).sum := by
  rw [sum_eq (d := d) _ (by simp [length]), EuclideanSpace.norm_eq]
  refine congrArg Real.sqrt (Finset.sum_congr rfl fun i _ => ?_)
  have hi : (i : ℕ) < u.length := by omega
  simp [List.getD_eq_getElem?_getD, hi]

theorem toVec_map_mul (c : ℝ) (u : List ℝ) : toVec d (u.map (c * ·)) = c • toVec d u := by
  ext i
  by_cases inside : (i : ℕ) < u.length
  · simp [List.getD_eq_getElem?_getD, inside]
  · simp [List.getD_eq_getElem?_getD, inside]

theorem toVec_zipWith_add {u v : List ℝ} (same : u.length = v.length) :
    toVec d (List.zipWith (· + ·) u v) = toVec d u + toVec d v := by
  ext i
  by_cases inside : (i : ℕ) < u.length
  · have inside' : (i : ℕ) < v.length := by omega
    simp [List.getD_eq_getElem?_getD, inside, inside']
  · have outside : ¬(i : ℕ) < v.length := by omega
    simp [List.getD_eq_getElem?_getD, inside, outside]

theorem toVec_replicate_zero : toVec d (List.replicate d 0) = 0 := by
  ext i
  simp [List.getD_eq_getElem?_getD]

theorem toVec_injective {u v : List ℝ} (hu : u.length = d) (hv : v.length = d)
    (same : toVec d u = toVec d v) : u = v := by
  apply List.ext_getElem (hu.trans hv.symm)
  intro i hi hi'
  have entry := congrArg (fun w => w ⟨i, hu ▸ hi⟩) same
  simpa [List.getD_eq_getElem?_getD, hi, hi'] using entry

/-- The list of the coordinates. -/
noncomputable def ofVec (x : EuclideanSpace ℝ (Fin d)) : List ℝ := List.ofFn fun i => x i

@[simp] theorem length_ofVec (x : EuclideanSpace ℝ (Fin d)) : (ofVec x).length = d := by
  simp [ofVec]

@[simp] theorem toVec_ofVec (x : EuclideanSpace ℝ (Fin d)) : toVec d (ofVec x) = x := by
  ext i
  simp [ofVec, List.getD_eq_getElem?_getD]

end EuclideanList
