import HorizonRic.Federated.SubjectErasure
import HorizonRic.Library.Buckets
import HorizonRic.Python.Raises
import Mathlib.Algebra.Order.Floor.Ring
import Mathlib.Order.Interval.Set.Defs

/-!
`runtime/shadow_executor.py` in exact arithmetic: the expected calibration error.
-/
namespace HorizonRic.ShadowExecutor
open Py

variable {K : Type} [Field K] [LinearOrder K]

/-- `int(x)`. -/
def truncated [FloorRing K] (x : K) : Int := if x < 0 then -⌊-x⌋ else ⌊x⌋

/-- `statistics.mean`. A `StatisticsError` is a `ValueError`. -/
def mean (xs : List K) : Except PyErr K :=
  if xs = [] then .error .valueError else .ok (xs.sum / xs.length)

/-- One round of the first loop. -/
def place [FloorRing K] (nBins : Int) (bins : List (List (K × K))) (pair : K × K) :
    Except PyErr (List (List (K × K))) := do
  let idx := min (truncated (pair.1 * nBins)) (nBins - 1)
  let i ← Erasure.axisIndex bins.length idx
  .ok (bins.modify i (· ++ [pair]))

/-- One round of the second loop. -/
def addBucket (total : ℕ) (ece : K) (bucket : List (K × K)) : Except PyErr K :=
  if bucket = [] then .ok ece
  else do
    let mp ← mean (bucket.map Prod.fst)
    let mo ← mean (bucket.map Prod.snd)
    .ok (ece + bucket.length / total * |mp - mo|)

/-- `_ece`. -/
def ece [FloorRing K] (preds outcomes : List K) (nBins : Int) : Except PyErr K :=
  if preds = [] then .ok 0
  else do
    let bins ← (preds.zip outcomes).foldlM (place nBins) (List.replicate nBins.toNat [])
    bins.foldlM (addBucket preds.length) 0

/-! The two loops. -/

/-- The bucket of a pair. -/
def bin [FloorRing K] (nBins : Int) (pair : K × K) : ℕ :=
  (min (truncated (pair.1 * nBins)) (nBins - 1)).toNat

def difference (pair : K × K) : K := pair.1 - pair.2

section
variable [IsStrictOrderedRing K]

/-- The population cancels: a bucket adds its sum of differences. -/
theorem addBucket_eq (total : ℕ) (ece : K) (bucket : List (K × K)) :
    addBucket total ece bucket = .ok (ece + |(bucket.map difference).sum| / total) := by
  unfold addBucket
  by_cases empty : bucket = []
  · simp [empty]
  · have positive : (0 : K) < bucket.length :=
      Nat.cast_pos.mpr (List.length_pos_iff.mpr empty)
    have meanOf : ∀ f : K × K → K,
        mean (bucket.map f) = .ok ((bucket.map f).sum / bucket.length) := by
      intro f
      rw [mean, if_neg (by simpa using empty), List.length_map]
    have apart : (bucket.map difference).sum =
        (bucket.map Prod.fst).sum - (bucket.map Prod.snd).sum :=
      Averages.sum_map_sub Prod.fst Prod.snd bucket
    rw [if_neg empty, meanOf, meanOf, ok_bind, ok_bind, ← sub_div, ← apart, abs_div,
      abs_of_pos positive]
    congr 2
    field_simp

theorem addBucket_run (total : ℕ) (bins : List (List (K × K))) (ece : K) :
    bins.foldlM (addBucket total) ece =
      .ok (ece + (bins.map fun bucket => |(bucket.map difference).sum|).sum / total) := by
  induction bins generalizing ece with
  | nil => simp [pure, Except.pure]
  | cons bucket rest ih =>
    rw [List.foldlM_cons, addBucket_eq, ok_bind, ih, List.map_cons, List.sum_cons, add_div,
      add_assoc]

end

variable [FloorRing K]

theorem truncated_nonneg {x : K} (nonneg : 0 ≤ x) : 0 ≤ truncated x := by
  unfold truncated
  rw [if_neg (not_lt.mpr nonneg)]
  exact Int.floor_nonneg.mpr nonneg

variable [IsStrictOrderedRing K]

/-- A prediction from 0 on has a bucket; the last one has no upper end. -/
theorem bin_found {nBins : Int} {pair : K × K} (some_ : 1 ≤ nBins) (nonneg : 0 ≤ pair.1) :
    bin nBins pair < nBins.toNat ∧
      Erasure.axisIndex nBins.toNat (min (truncated (pair.1 * nBins)) (nBins - 1)) =
        .ok (bin nBins pair) := by
  have scaled : 0 ≤ pair.1 * (nBins : K) :=
    mul_nonneg nonneg (Int.cast_nonneg (by omega))
  have index := truncated_nonneg scaled
  have below : bin nBins pair < nBins.toNat := by
    unfold bin
    omega
  refine ⟨below, ?_⟩
  unfold Erasure.axisIndex
  rw [if_pos (by omega), bin]

theorem place_run {nBins : Int} {pairs : List (K × K)} (some_ : 1 ≤ nBins)
    (nonneg : ∀ pair ∈ pairs, 0 ≤ pair.1) (seen : List (K × K)) :
    pairs.foldlM (place nBins) (Buckets.grouped (bin nBins) nBins.toNat seen) =
      .ok (Buckets.grouped (bin nBins) nBins.toNat (seen ++ pairs)) := by
  induction pairs generalizing seen with
  | nil => simp [pure, Except.pure]
  | cons pair rest ih =>
    have found := (bin_found some_ (nonneg pair List.mem_cons_self)).2
    have size : (Buckets.grouped (bin nBins) nBins.toNat seen).length = nBins.toNat := by
      simp [Buckets.grouped]
    have one : place nBins (Buckets.grouped (bin nBins) nBins.toNat seen) pair =
        .ok (Buckets.grouped (bin nBins) nBins.toNat (seen ++ [pair])) := by
      unfold place
      dsimp only
      rw [size, found, ok_bind, Buckets.modify_grouped]
    rw [List.foldlM_cons, one, ok_bind, ih fun other member =>
      nonneg other (List.mem_cons_of_mem pair member), List.append_assoc]
    rfl

/-- What the error measures: how far the buckets' sums of differences are from zero. -/
theorem ece_eq {nBins : Int} {preds outcomes : List K} (some_ : 1 ≤ nBins)
    (nonneg : ∀ p ∈ preds, 0 ≤ p) : ece preds outcomes nBins =
      .ok (Buckets.spread (bin nBins) nBins.toNat difference (preds.zip outcomes) /
        preds.length) := by
  unfold ece
  by_cases empty : preds = []
  · simp [empty]
  · have start := Buckets.grouped_nil (bin (K := K) nBins) nBins.toNat
    have placed := @place_run K _ _ _ _ nBins (preds.zip outcomes) some_
      (fun pair member => nonneg pair.1 (List.of_mem_zip member).1) []
    rw [if_neg empty, ← start, placed, ok_bind, addBucket_run, zero_add, Buckets.sum_grouped]
    rfl

/-! What the error lies between. -/

section Bounds
variable {nBins : Int} {preds outcomes : List K}

theorem bin_inside (some_ : 1 ≤ nBins) (nonneg : ∀ p ∈ preds, 0 ≤ p) :
    ∀ pair ∈ preds.zip outcomes, bin nBins pair < nBins.toNat := by
  intro pair member
  exact (bin_found some_ (nonneg pair.1 (List.of_mem_zip member).1)).1

theorem mean_gap_le (some_ : 1 ≤ nBins) (nonneg : ∀ p ∈ preds, 0 ≤ p)
    (same : preds.length = outcomes.length) :
    |preds.sum / preds.length - outcomes.sum / outcomes.length| ≤
      Buckets.spread (bin nBins) nBins.toNat difference (preds.zip outcomes) / preds.length := by
  have apart : ((preds.zip outcomes).map difference).sum = preds.sum - outcomes.sum := by
    have split := Averages.sum_map_sub Prod.fst Prod.snd (preds.zip outcomes)
    rw [List.map_fst_zip (by omega), List.map_snd_zip (by omega)] at split
    exact split
  have inside := @bin_inside K _ _ _ _ nBins preds outcomes some_ nonneg
  rw [← same, ← sub_div, ← apart, abs_div, Nat.abs_cast]
  gcongr
  exact Buckets.abs_sum_le_spread (bin nBins) inside difference

theorem le_mean_gaps (some_ : 1 ≤ nBins) (nonneg : ∀ p ∈ preds, 0 ≤ p) :
    Buckets.spread (bin nBins) nBins.toNat difference (preds.zip outcomes) / preds.length ≤
      ((preds.zip outcomes).map fun pair => |pair.1 - pair.2|).sum / preds.length := by
  have inside := @bin_inside K _ _ _ _ nBins preds outcomes some_ nonneg
  gcongr
  exact Buckets.spread_le_sum_abs (bin nBins) inside difference

/-- Two numbers from 0 to 1 are at most 1 apart. -/
theorem mean_gaps_le_one (predicted : ∀ p ∈ preds, p ∈ Set.Icc 0 1)
    (observed : ∀ o ∈ outcomes, o ∈ Set.Icc 0 1) :
    ((preds.zip outcomes).map fun pair => |pair.1 - pair.2|).sum / (preds.length : K) ≤ 1 := by
  have most : ((preds.zip outcomes).map fun pair => |pair.1 - pair.2|).sum ≤
      ((preds.zip outcomes).map fun pair => |pair.1 - pair.2|).length * (1 : K) := by
    apply Averages.sum_le_of_forall
    intro x member
    obtain ⟨pair, inside, rfl⟩ := List.mem_map.mp member
    obtain ⟨low, high⟩ := predicted pair.1 (List.of_mem_zip inside).1
    obtain ⟨low', high'⟩ := observed pair.2 (List.of_mem_zip inside).2
    rw [abs_le]
    constructor <;> linarith
  have short : (((preds.zip outcomes).map fun pair => |pair.1 - pair.2|).length : K) ≤
      preds.length := by
    rw [List.length_map, List.length_zip]
    exact Nat.cast_le.mpr (Nat.min_le_left _ _)
  apply div_le_one_of_le₀
  · linarith
  · exact Nat.cast_nonneg _

theorem ece_unit (some_ : 1 ≤ nBins) (predicted : ∀ p ∈ preds, p ∈ Set.Icc 0 1)
    (observed : ∀ o ∈ outcomes, o ∈ Set.Icc 0 1) :
    ∃ e, ece preds outcomes nBins = .ok e ∧ 0 ≤ e ∧ e ≤ 1 := by
  have nonneg : ∀ p ∈ preds, 0 ≤ p := fun p member => (predicted p member).1
  refine ⟨_, ece_eq some_ nonneg, ?_, ?_⟩
  · exact div_nonneg (Buckets.spread_nonneg _ _ _ _) (Nat.cast_nonneg _)
  · exact (le_mean_gaps some_ nonneg).trans (mean_gaps_le_one predicted observed)

/-- One rearrangement of both lists changes nothing. -/
theorem ece_perm {preds' outcomes' : List K} (some_ : 1 ≤ nBins) (nonneg : ∀ p ∈ preds, 0 ≤ p)
    (same : preds.length = outcomes.length) (same' : preds'.length = outcomes'.length)
    (reordered : (preds'.zip outcomes').Perm (preds.zip outcomes)) :
    ece preds' outcomes' nBins = ece preds outcomes nBins := by
  have length : preds'.length = preds.length := by
    have lengths := reordered.length_eq
    rw [List.length_zip, List.length_zip] at lengths
    omega
  have predicted : preds'.Perm preds := by
    have firsts := reordered.map Prod.fst
    rwa [List.map_fst_zip (by omega), List.map_fst_zip (by omega)] at firsts
  rw [ece_eq some_ nonneg, ece_eq some_ fun p member => nonneg p (predicted.subset member), length,
    Buckets.spread_perm _ _ _ reordered]

end Bounds

end HorizonRic.ShadowExecutor
