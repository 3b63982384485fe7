import HorizonRic.Federated.SubjectErasure
import HorizonRic.Library.OrderStatistics

/-!
The coordinate-wise aggregators of `federated/robust.py` in exact arithmetic: the median
and the trimmed mean of every coordinate lie between honest values of it.
-/
namespace HorizonRic.OrderAggregation
open Py RobustAggregation OrderStatistics

variable {K : Type*}

/-- Where a bound of a slice falls in an axis; from -1 down it counts from the end. -/
def sliceBound (size : ℕ) (i : ℤ) : ℕ := if i < 0 then (size + i).toNat else min i.toNat size

/-- `xs[start:stop]`. -/
def slice (xs : List K) (start stop : ℤ) : List K :=
  (xs.take (sliceBound xs.length stop)).drop (sliceBound xs.length start)

/-- The values of each coordinate. -/
def columns [Zero K] (mat : List (List K)) : List (List K) :=
  (List.range (mat.headD []).length).map fun j => mat.map (·.getD j 0)

variable [Field K] [LinearOrder K]

def mean (xs : List K) : K := xs.sum / xs.length

/-- The middle entry, or the two of them. -/
def middle (sorted : List K) : List K :=
  if sorted.length % 2 = 1 then (sorted.drop (sorted.length / 2)).take 1
  else (sorted.drop (sorted.length / 2 - 1)).take 2

def median (xs : List K) : K := mean (middle (xs.insertionSort (· ≤ ·)))

def coordinateMedian (updates : List (List K)) : Except PyErr (List K) := do
  let mat ← stack updates
  .ok ((columns mat).map median)

def trimmedMean (updates : List (List K)) (beta : ℤ) : Except PyErr (List K) := do
  let mat ← stack updates
  let n : ℤ := mat.length
  if n ≤ 2 * beta then .error .valueError
  else
    .ok ((columns mat).map fun column =>
      mean (slice (column.insertionSort (· ≤ ·)) beta (n - beta)))

/-! Permuted clients. -/

omit [Field K] [LinearOrder K] in
/-- The rows are a matrix if there are any and they have one length. -/
theorem stack_cases (updates : List (List K)) :
    (stack updates = .ok updates ∧ ∃ d, updates ≠ [] ∧ ∀ u ∈ updates, u.length = d) ∨
      (stack updates = .error .valueError ∧ ¬ ∃ d, updates ≠ [] ∧ ∀ u ∈ updates, u.length = d) := by
  by_cases matrix : ∃ d, updates ≠ [] ∧ ∀ u ∈ updates, u.length = d
  · obtain ⟨d, some_, dimension⟩ := matrix
    exact Or.inl ⟨stack_ok some_ dimension, d, some_, dimension⟩
  · refine Or.inr ⟨?_, matrix⟩
    cases updates with
    | nil => rfl
    | cons first rest =>
      rw [stack, if_neg]
      intro same
      apply matrix
      refine ⟨first.length, List.cons_ne_nil _ _, ?_⟩
      intro u member
      rcases List.mem_cons.mp member with rfl | later
      · rfl
      · simpa using List.all_eq_true.mp same u later

omit [Field K] [LinearOrder K] in
theorem matrix_perm {updates updates' : List (List K)} (perm : updates.Perm updates')
    (matrix : ∃ d, updates ≠ [] ∧ ∀ u ∈ updates, u.length = d) :
    ∃ d, updates' ≠ [] ∧ ∀ u ∈ updates', u.length = d := by
  obtain ⟨d, some_, dimension⟩ := matrix
  refine ⟨d, fun empty => some_ ?_, fun u member => dimension u (perm.mem_iff.mpr member)⟩
  rw [empty] at perm
  exact perm.eq_nil

omit [LinearOrder K] in
theorem columns_of_dimension {mat : List (List K)} {d : ℕ} (some_ : mat ≠ [])
    (dimension : ∀ u ∈ mat, u.length = d) :
    columns mat = (List.range d).map fun j => mat.map (·.getD j 0) := by
  cases mat with
  | nil => contradiction
  | cons first rest => rw [columns, List.headD_cons, dimension first List.mem_cons_self]

omit [LinearOrder K] in
/-- What sees the entries of each column without their order is unchanged. -/
theorem columns_perm {β : Type*} {updates updates' : List (List K)}
    (perm : updates.Perm updates') (matrix : ∃ d, updates ≠ [] ∧ ∀ u ∈ updates, u.length = d)
    {f : List K → β} (blind : ∀ xs ys : List K, xs.Perm ys → f xs = f ys) :
    (columns updates).map f = (columns updates').map f := by
  obtain ⟨d, some_, dimension⟩ := matrix
  obtain ⟨d', some', dimension'⟩ := matrix_perm perm ⟨d, some_, dimension⟩
  have same : d = d' := by
    obtain ⟨u, member⟩ := List.exists_mem_of_ne_nil updates some_
    rw [← dimension u member, dimension' u (perm.mem_iff.mp member)]
  rw [columns_of_dimension some_ dimension, columns_of_dimension some' dimension', ← same,
    List.map_map, List.map_map]
  apply List.map_congr_left
  intro j _
  exact blind _ _ (perm.map _)

omit [Field K] in
theorem sorted_perm {xs ys : List K} (perm : xs.Perm ys) :
    xs.insertionSort (· ≤ ·) = ys.insertionSort (· ≤ ·) :=
  ((List.perm_insertionSort _ _).trans (perm.trans (List.perm_insertionSort _ _).symm)).eq_of_pairwise
    (fun _ _ _ _ => le_antisymm) (List.pairwise_insertionSort _ _) (List.pairwise_insertionSort _ _)

omit [Field K] [LinearOrder K] in
/-- Stacking succeeds on both orders of the clients, or fails alike. -/
theorem stack_perm {updates updates' : List (List K)} (perm : updates.Perm updates') :
    (stack updates = .ok updates ∧ stack updates' = .ok updates' ∧
        ∃ d, updates ≠ [] ∧ ∀ u ∈ updates, u.length = d) ∨
      ∃ e, stack updates = .error e ∧ stack updates' = .error e := by
  rcases stack_cases updates with ⟨stacked, matrix⟩ | ⟨failed, ragged⟩
  · rcases stack_cases updates' with ⟨stacked', _⟩ | ⟨_, ragged'⟩
    · exact Or.inl ⟨stacked, stacked', matrix⟩
    · exact absurd (matrix_perm perm matrix) ragged'
  · rcases stack_cases updates' with ⟨_, matrix'⟩ | ⟨failed', _⟩
    · exact absurd (matrix_perm perm.symm matrix') ragged
    · exact Or.inr ⟨_, failed, failed'⟩

theorem coordinateMedian_perm {updates updates' : List (List K)}
    (perm : updates.Perm updates') : coordinateMedian updates = coordinateMedian updates' := by
  rw [coordinateMedian, coordinateMedian]
  rcases stack_perm perm with ⟨stacked, stacked', matrix⟩ | ⟨e, failed, failed'⟩
  · rw [stacked, stacked', ok_bind, ok_bind, columns_perm perm matrix]
    intro xs ys same
    rw [median, median, sorted_perm same]
  · rw [failed, failed']

theorem trimmedMean_perm {updates updates' : List (List K)}
    (perm : updates.Perm updates') (beta : ℤ) :
    trimmedMean updates beta = trimmedMean updates' beta := by
  rw [trimmedMean, trimmedMean]
  rcases stack_perm perm with ⟨stacked, stacked', matrix⟩ | ⟨e, failed, failed'⟩
  · rw [stacked, stacked', ok_bind, ok_bind, perm.length_eq]
    dsimp only
    rw [columns_perm perm matrix]
    intro xs ys same
    rw [sorted_perm same]
  · rw [failed, failed']

/-! Honest ranges. -/

/-- An aggregate of `d` coordinates, each of them between two honest values of it. -/
structure WithinHonest (updates : List (List K)) (byzantine : Finset ℕ) (d : ℕ) (out : List K) :
    Prop where
  length : out.length = d
  bracketed : ∀ j < d, Bracketed (updates.map (·.getD j 0)) byzantine (out.getD j 0)

omit [LinearOrder K] in
theorem getD_columns {mat : List (List K)} {d : ℕ} (some_ : mat ≠ [])
    (dimension : ∀ u ∈ mat, u.length = d) (f : List K → K) {j : ℕ} (inside : j < d) :
    ((columns mat).map f).getD j 0 = f (mat.map (·.getD j 0)) := by
  rw [columns_of_dimension some_ dimension, List.map_map, List.getD_eq_getElem?_getD,
    List.getElem?_map, List.getElem?_range inside]
  rfl

variable [IsStrictOrderedRing K]

omit [IsStrictOrderedRing K] in
theorem withinHonest_of_columns {updates : List (List K)} {byzantine : Finset ℕ} {d : ℕ}
    (some_ : updates ≠ []) (dimension : ∀ u ∈ updates, u.length = d) {f : List K → K}
    (each : ∀ column : List K, column.length = updates.length →
      Bracketed column byzantine (f column)) :
    WithinHonest updates byzantine d ((columns updates).map f) where
  length := by
    rw [columns_of_dimension some_ dimension, List.length_map, List.length_map, List.length_range]
  bracketed j inside := by
    rw [getD_columns some_ dimension f inside]
    exact each _ (List.length_map _)

theorem bracketed_trimmed {column : List K} {byzantine : Finset ℕ} {beta : ℤ}
    (few : (byzantine.card : ℤ) ≤ beta) (enough : 2 * beta < column.length) :
    Bracketed column byzantine
      (mean (slice (column.insertionSort (· ≤ ·)) beta (column.length - beta))) := by
  have length := (List.perm_insertionSort (· ≤ ·) column).length_eq
  have first : sliceBound column.length beta = beta.toNat := by
    rw [sliceBound, if_neg (by omega)]
    omega
  have last : sliceBound column.length (column.length - beta) = column.length - beta.toNat := by
    rw [sliceBound, if_neg (by omega)]
    omega
  rw [mean, slice, length, first, last]
  apply bracketed_mean
  · rw [Ne, ← List.length_eq_zero_iff, List.length_drop, List.length_take, length]
    omega
  · intro y member
    exact bracketed_of_mem_middle (by omega) (by omega) member

theorem bracketed_median {column : List K} {byzantine : Finset ℕ}
    (few : 2 * byzantine.card < column.length) : Bracketed column byzantine (median column) := by
  have length := (List.perm_insertionSort (· ≤ ·) column).length_eq
  rw [median, mean]
  have cut : ∀ first count : ℕ, byzantine.card ≤ first → 0 < count →
      first + count + byzantine.card ≤ column.length →
      Bracketed column byzantine
        ((((column.insertionSort (· ≤ ·)).drop first).take count).sum /
          (((column.insertionSort (· ≤ ·)).drop first).take count).length) := by
    intro first count low positive high
    apply bracketed_mean
    · rw [Ne, ← List.length_eq_zero_iff, List.length_take, List.length_drop, length]
      omega
    · intro y member
      have same : ((column.insertionSort (· ≤ ·)).take (first + count)).drop first =
          ((column.insertionSort (· ≤ ·)).drop first).take count := by
        rw [List.drop_take, Nat.add_sub_cancel_left]
      exact bracketed_of_mem_middle low high (same ▸ member)
  rw [middle, length]
  split
  · exact cut _ _ (by omega) (by omega) (by omega)
  · exact cut _ _ (by omega) (by omega) (by omega)

/-- The trimmed mean and the median of every coordinate stay in the honest range, wherever the
    Byzantine updates stand and whatever they are, and no order of the clients matters. -/
theorem aggregates_within_honest (updates : List (List K)) (d : ℕ)
    (dimension : ∀ u ∈ updates, u.length = d) :
    (∀ (byzantine : Finset ℕ) (beta : ℤ), (byzantine.card : ℤ) ≤ beta →
      2 * beta < updates.length →
        ∃ out, trimmedMean updates beta = .ok out ∧ WithinHonest updates byzantine d out) ∧
    (∀ byzantine : Finset ℕ, 2 * byzantine.card < updates.length →
      ∃ out, coordinateMedian updates = .ok out ∧ WithinHonest updates byzantine d out) ∧
    ∀ updates', updates.Perm updates' →
      (∀ beta, trimmedMean updates' beta = trimmedMean updates beta) ∧
        coordinateMedian updates' = coordinateMedian updates := by
  refine ⟨?_, ?_, ?_⟩
  · intro byzantine beta few enough
    have some_ : updates ≠ [] := by
      rintro rfl
      rw [List.length_nil] at enough
      omega
    rw [trimmedMean, stack_ok some_ dimension, ok_bind]
    dsimp only
    rw [if_neg (by omega)]
    refine ⟨_, rfl, withinHonest_of_columns some_ dimension ?_⟩
    intro column length
    rw [← length]
    exact bracketed_trimmed few (length ▸ enough)
  · intro byzantine few
    have some_ : updates ≠ [] := by
      rintro rfl
      rw [List.length_nil] at few
      omega
    rw [coordinateMedian, stack_ok some_ dimension, ok_bind]
    refine ⟨_, rfl, withinHonest_of_columns some_ dimension ?_⟩
    intro column length
    exact bracketed_median (length ▸ few)
  · intro updates' perm
    exact ⟨trimmedMean_perm perm.symm, coordinateMedian_perm perm.symm⟩

/-- Three cells, one of them with an update of a million. -/
def poisonedUpdates : List (List ℚ) := [[1, 4], [10 ^ 6, -10 ^ 6], [2, 3]]

theorem aggregates_within_honest_poisoned :
    (∀ u ∈ poisonedUpdates, u.length = 2) ∧
      (∃ out, trimmedMean poisonedUpdates 1 = .ok out ∧
        WithinHonest poisonedUpdates {1} 2 out) ∧
      ∃ out, coordinateMedian poisonedUpdates = .ok out ∧
        WithinHonest poisonedUpdates {1} 2 out := by
  have dimension : ∀ u ∈ poisonedUpdates, u.length = 2 := by decide
  obtain ⟨trimmed, median, _⟩ := aggregates_within_honest poisonedUpdates 2 dimension
  exact ⟨dimension, trimmed {1} 1 (by decide) (by decide), median {1} (by decide)⟩

/-! Without rounding numpy computes these aggregators. -/

theorem mean_fin {xs : List ℚ} (some_ : xs ≠ []) :
    exactFloat64.mean (xs.map Number.fin) = .fin (mean xs) := by
  rw [Float64.mean, if_neg (by simpa using some_), exact_sum, List.length_map, Number.divBy_fin]
  rfl

theorem median_fin {xs : List ℚ} (some_ : xs ≠ []) :
    exactFloat64.median (xs.map Number.fin) = .fin (median xs) := by
  have length := (List.perm_insertionSort (· ≤ ·) xs).length_eq
  have positive := List.length_pos_iff.mpr some_
  have finite : ((xs.insertionSort (· ≤ ·)).map Number.fin).any Number.isNan = false := by
    rw [List.any_map, List.any_eq_false]
    exact fun _ _ => Bool.false_ne_true
  rw [Float64.median, sort_fin, finite, median, middle, List.length_map, length]
  simp only [Bool.false_eq_true, if_false, ← List.map_drop, ← List.map_take]
  split
  · apply mean_fin
    rw [Ne, ← List.length_eq_zero_iff, List.length_take, List.length_drop, length]
    omega
  · apply mean_fin
    rw [Ne, ← List.length_eq_zero_iff, List.length_take, List.length_drop, length]
    omega

theorem columns_fin {mat : List (List ℚ)} {d : ℕ} (some_ : mat ≠ [])
    (dimension : ∀ u ∈ mat, u.length = d) {f : List Number → Number} {g : List ℚ → ℚ}
    (same : ∀ column : List ℚ, column.length = mat.length →
      f (column.map Number.fin) = .fin (g column)) :
    (Erasure.columns (mat.map (List.map Number.fin))).map f =
      ((columns mat).map g).map Number.fin := by
  have width : ((mat.map (List.map Number.fin)).headD []).length = d := by
    cases mat with
    | nil => contradiction
    | cons first rest => simpa using dimension first List.mem_cons_self
  rw [columns_of_dimension some_ dimension, Erasure.columns, width, List.map_map, List.map_map,
    List.map_map]
  apply List.map_congr_left
  intro j member
  have inside := List.mem_range.mp member
  have column : (mat.map (List.map Number.fin)).map (·.getD j .nan) =
      (mat.map (·.getD j 0)).map Number.fin := by
    rw [List.map_map, List.map_map]
    apply List.map_congr_left
    intro u among
    have short : j < u.length := (dimension u among).symm ▸ inside
    simp [List.getD_eq_getElem?_getD, List.getElem?_map, List.getElem?_eq_getElem short]
  simp only [Function.comp_apply, column]
  exact same _ (List.length_map _)

theorem coordinateMedian_fin (updates : List (List ℚ)) :
    Erasure.coordinateMedian exactFloat64 (updates.map (List.map Number.fin)) =
      (coordinateMedian updates).map (List.map Number.fin) := by
  rw [Erasure.coordinateMedian, coordinateMedian, Erasure.stack_fin]
  rcases stack_cases updates with ⟨stacked, d, some_, dimension⟩ | ⟨failed, _⟩
  · rw [stacked]
    change Except.ok _ = Except.ok _
    rw [columns_fin some_ dimension]
    intro column length
    apply median_fin
    rw [Ne, ← List.length_eq_zero_iff, length, List.length_eq_zero_iff]
    exact some_
  · rw [failed]
    rfl

theorem trimmedMean_fin (updates : List (List ℚ)) (beta : ℕ) :
    Erasure.trimmedMean exactFloat64 (updates.map (List.map Number.fin)) beta =
      (trimmedMean updates beta).map (List.map Number.fin) := by
  rw [Erasure.trimmedMean, trimmedMean, Erasure.stack_fin]
  rcases stack_cases updates with ⟨stacked, d, some_, dimension⟩ | ⟨failed, _⟩
  · rw [stacked]
    change (if (updates.map (List.map Number.fin)).length ≤ 2 * beta then _ else Except.ok _) =
      Except.map _ (if (updates.length : ℤ) ≤ 2 * beta then _ else Except.ok _)
    rw [List.length_map]
    by_cases few : updates.length ≤ 2 * beta
    · rw [if_pos few, if_pos (by omega)]
      rfl
    · rw [if_neg few, if_neg (by omega)]
      change Except.ok _ = Except.ok _
      rw [columns_fin some_ dimension]
      intro column length
      have sorted := (List.perm_insertionSort (· ≤ ·) column).length_eq
      have first : sliceBound updates.length beta = beta := by
        rw [sliceBound, if_neg (by omega)]
        omega
      have last : sliceBound updates.length (updates.length - beta) = updates.length - beta := by
        rw [sliceBound, if_neg (by omega)]
        omega
      rw [sort_fin, slice, sorted, length, first, last, ← List.map_take, ← List.map_drop]
      apply mean_fin
      rw [Ne, ← List.length_eq_zero_iff, List.length_drop, List.length_take, sorted]
      omega
  · rw [failed]
    rfl

end HorizonRic.OrderAggregation
