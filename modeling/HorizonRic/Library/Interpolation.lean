import Mathlib.LinearAlgebra.Lagrange
import Mathlib.Algebra.BigOperators.Fin

/-!
Polynomials by their coefficient lists, and Lagrange interpolation at zero from
a list of points. A polynomial of degree below the number of points is known by
its values there: its value at zero is a sum over the points, and one polynomial
passes through given points.
-/
namespace Interpolation
open Polynomial

variable {F : Type*} [Field F]

/-! Coefficient lists. -/

noncomputable def ofCoeffs : List F → F[X]
  | [] => 0
  | c :: cs => C c + X * ofCoeffs cs

theorem coeff_ofCoeffs (cs : List F) (i : ℕ) : (ofCoeffs cs).coeff i = cs.getD i 0 := by
  induction cs generalizing i with
  | nil => simp [ofCoeffs]
  | cons c cs ih =>
    cases i with
    | zero => simp [ofCoeffs]
    | succ i => simp [ofCoeffs, coeff_X_mul, coeff_C_succ, ih]

theorem eval_ofCoeffs_cons (c : F) (cs : List F) (x : F) :
    (ofCoeffs (c :: cs)).eval x = c + x * (ofCoeffs cs).eval x := by
  simp [ofCoeffs]

theorem eval_zero_ofCoeffs (c : F) (cs : List F) : (ofCoeffs (c :: cs)).eval 0 = c := by
  simp [ofCoeffs]

theorem degree_ofCoeffs_lt (cs : List F) : (ofCoeffs cs).degree < cs.length := by
  rw [degree_lt_iff_coeff_zero]
  intro i beyond
  rw [coeff_ofCoeffs, List.getD_eq_getElem?_getD, List.getElem?_eq_none beyond]
  rfl

theorem ofCoeffs_coeffs {f : F[X]} {n : ℕ} (low : f.degree < n) :
    ofCoeffs ((List.range n).map f.coeff) = f := by
  ext i
  rw [coeff_ofCoeffs]
  by_cases bound : i < n
  · simp [List.getD_eq_getElem?_getD, bound]
  · have zero : f.coeff i = 0 := (degree_lt_iff_coeff_zero f n).mp low i (by omega)
    simp [zero, List.getD_eq_getElem?_getD, bound]

theorem ofCoeffs_injective {cs ds : List F} (lengths : cs.length = ds.length)
    (same : ofCoeffs cs = ofCoeffs ds) : cs = ds := by
  refine List.ext_getElem lengths fun i hi hi' => ?_
  have coeffs := congrArg (fun f => f.coeff i) same
  simpa [coeff_ofCoeffs, hi, hi'] using coeffs

/-! Points. -/

/-- Interpolation at zero, point after point. -/
def atZero (points : List (F × F)) : F :=
  (points.zipIdx.map fun pt =>
    pt.1.2 * (((points.eraseIdx pt.2).map fun other => -other.1).prod *
      ((points.eraseIdx pt.2).map fun other => pt.1.1 - other.1).prod⁻¹)).sum

theorem sum_zipIdx (xs : List α) (f : α × ℕ → F) :
    (xs.zipIdx.map f).sum = ∑ i : Fin xs.length, f (xs[i], i) := by
  have indexed : xs.zipIdx = List.ofFn fun i : Fin xs.length => (xs[i], (i : ℕ)) := by
    apply List.ext_getElem
    · simp
    · intro i hi hi'
      simp
  rw [indexed, List.map_ofFn, List.sum_ofFn]
  rfl

theorem prod_eraseIdx (xs : List α) (f : α → F) (i : Fin xs.length) :
    ((xs.eraseIdx i).map f).prod = ∏ j ∈ Finset.univ.erase i, f xs[j] := by
  have whole : (Finset.univ : Finset (Fin xs.length)).val.map (fun j => xs[j]) = (xs : Multiset α) := by
    rw [Fin.univ_val_map]
    exact congrArg _ List.ofFn_getElem
  have rest : ((Finset.univ.erase i).val.map fun j => xs[j]) = (xs.eraseIdx i : Multiset α) := by
    have split : xs[i] ::ₘ (xs.eraseIdx i : Multiset α) = (xs : Multiset α) :=
      Multiset.coe_eq_coe.mpr (List.getElem_cons_eraseIdx_perm i.isLt)
    have index : i ::ₘ (Finset.univ.erase i).val = (Finset.univ : Finset (Fin xs.length)).val := by
      rw [Finset.erase_val, Multiset.cons_erase (Finset.mem_univ i)]
    apply (Multiset.cons_inj_right xs[i]).mp
    rw [split, ← whole, ← index, Multiset.map_cons]
  calc ((xs.eraseIdx i).map f).prod = (Multiset.map f (xs.eraseIdx i : Multiset α)).prod := by
        rw [Multiset.map_coe, Multiset.prod_coe]
    _ = ((Finset.univ.erase i).val.map fun j => f xs[j]).prod := by
        rw [← rest, Multiset.map_map]
        rfl
    _ = ∏ j ∈ Finset.univ.erase i, f xs[j] := rfl

section
variable {points : List (F × F)} (distinct : (points.map Prod.fst).Nodup)
include distinct

omit [Field F] in
theorem nodes_injOn : Set.InjOn (fun i : Fin points.length => points[i].1)
    (Finset.univ : Finset (Fin points.length)) := by
  intro i _ j _ same
  have point : points[i] = points[j] :=
    List.inj_on_of_nodup_map distinct (List.getElem_mem i.isLt) (List.getElem_mem j.isLt) same
  exact Fin.ext ((distinct.of_map _).getElem_inj_iff.mp point)

/-- Interpolation at zero gives the value there of the polynomial through the points. -/
theorem atZero_eq {f : F[X]} (low : f.degree < points.length)
    (through : ∀ pt ∈ points, f.eval pt.1 = pt.2) : atZero points = f.eval 0 := by
  classical
  have interpolated := Lagrange.eq_interpolate_of_eval_eq (s := Finset.univ)
    (r := fun i : Fin points.length => points[i].2) (nodes_injOn distinct)
    (by simpa using low) (fun i _ => through _ (List.getElem_mem i.isLt))
  rw [interpolated, Lagrange.interpolate_apply, eval_finsetSum, atZero, sum_zipIdx]
  refine Finset.sum_congr rfl fun i _ => ?_
  rw [prod_eraseIdx points _ i, prod_eraseIdx points _ i, eval_mul, eval_C, Lagrange.basis,
    eval_prod, ← Finset.prod_inv_distrib, ← Finset.prod_mul_distrib]
  refine congrArg _ (Finset.prod_congr rfl fun j _ => ?_)
  simp [Lagrange.basisDivisor, mul_comm]

/-- Exactly one polynomial of low degree passes through the points. -/
theorem existsUnique_through :
    ∃! f : F[X], f.degree < points.length ∧ ∀ pt ∈ points, f.eval pt.1 = pt.2 := by
  classical
  have nodes := nodes_injOn distinct
  have size : (Finset.univ : Finset (Fin points.length)).card = points.length := by simp
  refine ⟨Lagrange.interpolate Finset.univ (fun i : Fin points.length => points[i].1)
    fun i => points[i].2, ⟨?_, fun pt member => ?_⟩, fun f given => ?_⟩
  · have low := Lagrange.degree_interpolate_lt (fun i : Fin points.length => points[i].2) nodes
    rwa [size] at low
  · obtain ⟨i, bound, rfl⟩ := List.getElem_of_mem member
    exact Lagrange.eval_interpolate_at_node (fun i : Fin points.length => points[i].2) nodes
      (Finset.mem_univ ⟨i, bound⟩)
  · apply Lagrange.eq_interpolate_of_eval_eq _ nodes (by rw [size]; exact given.1)
    exact fun i _ => given.2 _ (List.getElem_mem i.isLt)

end
end Interpolation
