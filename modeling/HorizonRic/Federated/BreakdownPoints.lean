import HorizonRic.Federated.TrimmedAggregation

/-!
The breakdown points that `spectrum/attacks.py` states for the aggregators of
`federated/robust.py`: how many clients it takes to carry an aggregate past every bound.
-/
namespace HorizonRic.OrderAggregation
open Py RobustAggregation OrderStatistics

variable {K : Type*} [Field K] [LinearOrder K]

def fedavg (updates : List (List K)) : Except PyErr (List K) := do
  let mat ← stack updates
  .ok ((columns mat).map mean)

/-- Whatever so many clients upload, some bound holds in every coordinate. -/
def Withstands (aggregate : List (List K) → Except PyErr (List K)) (honest : List (List K))
    (m : ℕ) : Prop :=
  ∃ bound : K, ∀ malicious : List (List K), malicious.length = m →
    ∀ out, aggregate (honest ++ malicious) = .ok out → ∀ x ∈ out, |x| ≤ bound

variable [IsStrictOrderedRing K]

theorem abs_le_sum {xs : List K} {x : K} (member : x ∈ xs) : |x| ≤ (xs.map abs).sum := by
  apply List.single_le_sum
  · intro y among
    obtain ⟨z, _, rfl⟩ := List.mem_map.mp among
    exact abs_nonneg z
  · exact List.mem_map_of_mem member

theorem sum_abs_nonneg (xs : List K) : 0 ≤ (xs.map abs).sum := by
  apply List.sum_nonneg
  intro y among
  obtain ⟨z, _, rfl⟩ := List.mem_map.mp among
  exact abs_nonneg z

/-! Too many clients. -/

/-- A great entry on top of a column is among those averaged. -/
structure KeepsTop (kept : List K → List K) (column : List K) (m : ℕ) (top : K) : Prop where
  among : top ∈ kept (column ++ List.replicate m top)
  part : (kept (column ++ List.replicate m top)).Subperm (column ++ List.replicate m top)

section
variable {m : ℕ} {kept : List K → List K}

theorem KeepsTop.le_mean {column : List K} {low top : K} (keeps : KeepsTop kept column m top)
    (least : ∀ x ∈ column, low ≤ x) (high : low ≤ top) :
    low + (top - low) / (column.length + m : ℕ) ≤
      mean (kept (column ++ List.replicate m top)) := by
  have each : ∀ y ∈ kept (column ++ List.replicate m top), low ≤ y := by
    intro y member
    rcases List.mem_append.mp (keeps.part.subset member) with old | crafted
    · exact least y old
    · rw [List.eq_of_mem_replicate crafted]
      exact high
  have some_ : (0 : K) < (kept (column ++ List.replicate m top)).length := by
    exact_mod_cast List.length_pos_of_mem keeps.among
  have short : ((kept (column ++ List.replicate m top)).length : K) ≤ (column.length + m : ℕ) := by
    have length := keeps.part.length_le
    rw [List.length_append, List.length_replicate] at length
    exact_mod_cast length
  have share := div_le_div_of_nonneg_left (sub_nonneg.mpr high) some_ short
  have average := le_mean_of_mem each keeps.among
  rw [mean]
  linarith

/-- If every great entry is averaged, some of them carry the average past a bound. -/
theorem exists_top {column : List K} (some_ : column ≠ [])
    (keeps : ∀ top, (∀ x ∈ column, x ≤ top) → KeepsTop kept column m top) (bound : K) :
    ∃ top, bound < mean (kept (column ++ List.replicate m top)) := by
  let size := (column.map abs).sum
  have nonneg : 0 ≤ size := sum_abs_nonneg column
  have entries : ∀ x ∈ column, -size ≤ x ∧ x ≤ size := fun x member =>
    abs_le.mp (abs_le_sum member)
  have many : (1 : K) ≤ (column.length + m : ℕ) := by
    have filled := List.length_pos_iff.mpr some_
    exact_mod_cast (show 1 ≤ column.length + m by omega)
  let top := size + (column.length + m : ℕ) * (|bound| + size + 1)
  have high : size ≤ top := by
    have product : 0 ≤ ((column.length + m : ℕ) : K) * (|bound| + size + 1) := by positivity
    simp only [top]
    linarith
  refine ⟨top, ?_⟩
  have average := (keeps top fun x member => (entries x member).2.trans high).le_mean
    (fun x member => (entries x member).1) (by linarith)
  have enough : |bound| + size + 1 ≤ (top - -size) / (column.length + m : ℕ) := by
    rw [le_div_iff₀ (by linarith)]
    simp only [top]
    linarith
  linarith [le_abs_self bound]

theorem not_withstands {honest : List (List K)} {d : ℕ}
    {aggregate : List (List K) → Except PyErr (List K)} (some_ : honest ≠ [])
    (dimension : ∀ u ∈ honest, u.length = d) (positive : 0 < d) (kept : List K → List K)
    (aggregates : ∀ mat : List (List K), mat.length = honest.length + m → mat ≠ [] →
      (∀ u ∈ mat, u.length = d) → aggregate mat = .ok ((columns mat).map fun xs => mean (kept xs)))
    (keeps : ∀ (column : List K) (top : K), column.length = honest.length →
      (∀ x ∈ column, x ≤ top) → KeepsTop kept column m top) :
    ¬ Withstands aggregate honest m := by
  rintro ⟨bound, bounded⟩
  let column := honest.map (·.getD 0 0)
  have filled : column ≠ [] := by simpa [column] using some_
  obtain ⟨top, past⟩ := exists_top filled (fun top => keeps column top (List.length_map _)) bound
  let malicious := List.replicate m (List.replicate d top)
  have same : ∀ u ∈ honest ++ malicious, u.length = d := by
    intro u member
    rcases List.mem_append.mp member with old | crafted
    · exact dimension u old
    · rw [List.eq_of_mem_replicate crafted, List.length_replicate]
  have nonempty : honest ++ malicious ≠ [] := by simp [some_]
  have first : (honest ++ malicious).map (·.getD 0 0) = column ++ List.replicate m top := by
    rw [List.map_append, List.map_replicate]
    congr 2
    rw [List.getD_eq_getElem?_getD, List.getElem?_replicate, if_pos positive]
    rfl
  have made := aggregates (honest ++ malicious)
    (by rw [List.length_append, List.length_replicate]) nonempty same
  have entry := bounded malicious List.length_replicate _ made
    (mean (kept (column ++ List.replicate m top))) (by
      rw [columns_of_dimension nonempty same, List.map_map]
      refine List.mem_map.mpr ⟨0, List.mem_range.mpr positive, ?_⟩
      rw [Function.comp_apply, first])
  exact absurd ((le_abs_self _).trans entry) (not_le.mpr past)

end

/-! What each aggregator averages. -/

omit [Field K] [LinearOrder K] [IsStrictOrderedRing K] in
theorem keepsTop_fedavg {column : List K} {m : ℕ} (some_ : 0 < m) (top : K) :
    KeepsTop id column m top where
  among := List.mem_append_right column (List.mem_replicate.mpr ⟨by omega, rfl⟩)
  part := List.Subperm.refl _

omit [Field K] [IsStrictOrderedRing K] in
/-- A slice of the sorted column that reaches past the honest entries. -/
theorem keepsTop_slice {kept : List K → List K} {column : List K} {m : ℕ} {top : K}
    (first last : ℕ) (below : ∀ x ∈ column, x ≤ top) (past : column.length < last) (nonempty : first < last)
    (inside : last ≤ column.length + m)
    (cut : kept (column ++ List.replicate m top) =
      (((column ++ List.replicate m top).insertionSort (· ≤ ·)).take last).drop first) :
    KeepsTop kept column m top where
  among := by
    have length := (List.perm_insertionSort (· ≤ ·) column).length_eq
    rw [cut, insertionSort_append_replicate below]
    have short : last - 1 < column.length + m := by omega
    apply List.mem_iff_getElem.mpr
    refine ⟨last - 1 - first, ?_, ?_⟩
    · rw [List.length_drop, List.length_take, List.length_append, length, List.length_replicate]
      omega
    · rw [List.getElem_drop, List.getElem_take, List.getElem_append_right (by omega),
        List.getElem_replicate]
  part := by
    rw [cut]
    exact ((List.drop_sublist _ _).trans (List.take_sublist _ _)).subperm.trans
      (List.perm_insertionSort _ _).subperm

omit [Field K] [IsStrictOrderedRing K] in
theorem keepsTop_median {column : List K} {m : ℕ} {top : K} (below : ∀ x ∈ column, x ≤ top)
    (some_ : column ≠ []) (many : column.length ≤ m) :
    KeepsTop (fun xs => middle (xs.insertionSort (· ≤ ·))) column m top := by
  have length := (List.perm_insertionSort (· ≤ ·) (column ++ List.replicate m top)).length_eq
  rw [List.length_append, List.length_replicate] at length
  have filled := List.length_pos_iff.mpr some_
  by_cases odd : (column.length + m) % 2 = 1
  · refine keepsTop_slice ((column.length + m) / 2) ((column.length + m) / 2 + 1) below (by omega) (by omega) (by omega) ?_
    rw [middle, length, if_pos odd, List.take_drop]
  · refine keepsTop_slice ((column.length + m) / 2 - 1) ((column.length + m) / 2 - 1 + 2) below
      (by omega) (by omega) (by omega) ?_
    rw [middle, length, if_neg odd, List.take_drop]

omit [Field K] [IsStrictOrderedRing K] in
theorem keepsTop_trimmed {column : List K} {m beta : ℕ} {top : K} (below : ∀ x ∈ column, x ≤ top)
    (enough : 2 * beta < column.length + m) (many : beta < m) :
    KeepsTop (fun xs => slice (xs.insertionSort (· ≤ ·)) beta ((column.length + m : ℕ) - beta))
      column m top := by
  have length := (List.perm_insertionSort (· ≤ ·) (column ++ List.replicate m top)).length_eq
  rw [List.length_append, List.length_replicate] at length
  refine keepsTop_slice beta (column.length + m - beta) below (by omega) (by omega) (by omega) ?_
  have start : sliceBound (column.length + m) beta = beta := by
    rw [sliceBound, if_neg (by omega)]
    omega
  have stop : sliceBound (column.length + m) ((column.length + m : ℕ) - beta) =
      column.length + m - beta := by
    rw [sliceBound, if_neg (by omega)]
    omega
  rw [slice, length, start, stop]

/-! Few enough. -/

/-- The positions after the honest updates. -/
def appended (honest m : ℕ) : Finset ℕ := Finset.Ico honest (honest + m)

theorem card_appended (honest m : ℕ) : (appended honest m).card = m := by
  rw [appended, Nat.card_Ico]
  omega

theorem bracketed_abs_le {honest malicious : List (List K)} {d j : ℕ} {y : K}
    (dimension : ∀ u ∈ honest, u.length = d) (inside : j < d)
    (between : Bracketed ((honest ++ malicious).map (·.getD j 0))
      (appended honest.length malicious.length) y) : |y| ≤ (honest.flatten.map abs).sum := by
  have honestAt : ∀ i (short : i < ((honest ++ malicious).map (·.getD j 0)).length),
      i ∉ appended honest.length malicious.length →
        |((honest ++ malicious).map (·.getD j 0))[i]| ≤ (honest.flatten.map abs).sum := by
    intro i short outside
    rw [List.length_map, List.length_append] at short
    have early : i < honest.length := by
      rw [appended, Finset.mem_Ico] at outside
      omega
    have wide : j < honest[i].length := by
      rw [dimension _ (List.getElem_mem early)]
      exact inside
    rw [List.getElem_map, List.getElem_append_left early, List.getD_eq_getElem?_getD,
      List.getElem?_eq_getElem wide]
    exact abs_le_sum (List.mem_flatten.mpr ⟨_, List.getElem_mem early, List.getElem_mem wide⟩)
  obtain ⟨⟨i, short, outside, below⟩, ⟨k, short', outside', above⟩⟩ := between
  have low := (abs_le.mp (honestAt i short outside)).1
  have high := (abs_le.mp (honestAt k short' outside')).2
  exact abs_le.mpr ⟨low.trans below, above.trans high⟩

theorem withstands_of_within {honest : List (List K)} {d m : ℕ}
    {aggregate : List (List K) → Except PyErr (List K)} (some_ : honest ≠ [])
    (dimension : ∀ u ∈ honest, u.length = d)
    (refuses : ∀ mat, (¬ ∃ d, mat ≠ [] ∧ ∀ u ∈ mat, u.length = d) →
      aggregate mat = .error .valueError)
    (within : ∀ mat : List (List K), mat.length = honest.length + m →
      (∀ u ∈ mat, u.length = d) →
        ∃ out, aggregate mat = .ok out ∧ WithinHonest mat (appended honest.length m) d out) :
    Withstands aggregate honest m := by
  refine ⟨(honest.flatten.map abs).sum, ?_⟩
  intro malicious count out made x member
  by_cases matrix : ∃ d, honest ++ malicious ≠ [] ∧ ∀ u ∈ honest ++ malicious, u.length = d
  · obtain ⟨d', _, same⟩ := matrix
    obtain ⟨first, among⟩ := List.exists_mem_of_ne_nil honest some_
    have width : d' = d := by
      rw [← same first (List.mem_append_left malicious among), dimension first among]
    obtain ⟨out', made', inside⟩ := within (honest ++ malicious)
      (by rw [List.length_append, count]) (fun u row => (same u row).trans width)
    rw [made] at made'
    cases made'
    obtain ⟨j, short, rfl⟩ := List.mem_iff_getElem.mp member
    have between := inside.bracketed j (inside.length ▸ short)
    rw [List.getD_eq_getElem?_getD, List.getElem?_eq_getElem short, ← count] at between
    exact bracketed_abs_le dimension (inside.length ▸ short) between
  · rw [refuses _ matrix] at made
    cases made

omit [Field K] [LinearOrder K] [IsStrictOrderedRing K] in
theorem stack_refuses {mat : List (List K)} (ragged : ¬ ∃ d, mat ≠ [] ∧ ∀ u ∈ mat, u.length = d) :
    stack mat = .error .valueError := by
  rcases stack_cases mat with ⟨_, matrix⟩ | ⟨failed, _⟩
  · exact absurd matrix ragged
  · exact failed

/-- Each aggregator withstands exactly as many clients as its breakdown point says: the mean
    none, the median less than half, the trimmed mean as many as it trims at either end. -/
theorem breakdown_points (honest : List (List K)) (d : ℕ) (some_ : honest ≠ [])
    (dimension : ∀ u ∈ honest, u.length = d) (positive : 0 < d) (m : ℕ) :
    (Withstands fedavg honest m ↔ m = 0) ∧
    (Withstands coordinateMedian honest m ↔ 2 * m < honest.length + m) ∧
    ∀ beta : ℕ, 2 * beta < honest.length + m →
      (Withstands (trimmedMean · beta) honest m ↔ m ≤ beta) := by
  refine ⟨⟨?_, ?_⟩, ⟨?_, ?_⟩, ?_⟩
  · intro withstands
    by_contra more
    refine not_withstands some_ dimension positive id ?_ ?_ withstands
    · intro mat _ filled same
      rw [fedavg, stack_ok filled same]
      rfl
    · intro column top _ _
      exact keepsTop_fedavg (by omega) top
  · rintro rfl
    cases made : fedavg honest with
    | error e =>
      refine ⟨0, ?_⟩
      intro malicious none_ out made' _ _
      rw [List.eq_nil_of_length_eq_zero none_, List.append_nil, made] at made'
      cases made'
    | ok out =>
      refine ⟨(out.map abs).sum, ?_⟩
      intro malicious none_ out' made' x member
      rw [List.eq_nil_of_length_eq_zero none_, List.append_nil, made] at made'
      cases made'
      exact abs_le_sum member
  · intro withstands
    by_contra half
    refine not_withstands some_ dimension positive
      (fun xs => middle (xs.insertionSort (· ≤ ·))) ?_ ?_ withstands
    · intro mat _ filled same
      rw [coordinateMedian, stack_ok filled same]
      rfl
    · intro column top length below
      refine keepsTop_median below ?_ (by omega)
      rw [Ne, ← List.length_eq_zero_iff, length, List.length_eq_zero_iff]
      exact some_
  · intro minority
    refine withstands_of_within some_ dimension ?_ ?_
    · intro mat ragged
      rw [coordinateMedian, stack_refuses ragged]
      rfl
    · intro mat count same
      refine (aggregates_within_honest mat d same).2.1 (appended honest.length m) ?_
      rw [card_appended, count]
      exact minority
  · intro beta enough
    constructor
    · intro withstands
      by_contra many
      refine not_withstands some_ dimension positive
        (fun xs => slice (xs.insertionSort (· ≤ ·)) beta ((honest.length + m : ℕ) - beta)) ?_ ?_ withstands
      · intro mat count filled same
        rw [trimmedMean, stack_ok filled same, ok_bind]
        dsimp only
        rw [if_neg (by omega), count]
      · intro column top length below
        rw [← length]
        exact keepsTop_trimmed below (by omega) (by omega)
    · intro few
      refine withstands_of_within some_ dimension ?_ ?_
      · intro mat ragged
        rw [trimmedMean, stack_refuses ragged]
        rfl
      · intro mat count same
        refine (aggregates_within_honest mat d same).1 (appended honest.length m) beta ?_ ?_
        · rw [card_appended]
          exact_mod_cast few
        · omega

/-- Two honest updates of one coordinate: one more client is too many for the mean only. -/
theorem breakdown_points_pair : ¬ Withstands fedavg ([[1], [2]] : List (List ℚ)) 1 ∧
    Withstands coordinateMedian ([[1], [2]] : List (List ℚ)) 1 ∧
    ¬ Withstands coordinateMedian ([[1], [2]] : List (List ℚ)) 2 ∧
    Withstands (trimmedMean · (1 : ℕ)) ([[1], [2]] : List (List ℚ)) 1 := by
  have one := breakdown_points ([[1], [2]] : List (List ℚ)) 1 (by decide) (by decide) (by decide) 1
  have two := breakdown_points ([[1], [2]] : List (List ℚ)) 1 (by decide) (by decide) (by decide) 2
  refine ⟨fun withstands => absurd (one.1.mp withstands) (by decide), one.2.1.mpr (by decide),
    fun withstands => absurd (two.2.1.mp withstands) (by decide), ?_⟩
  exact (one.2.2 1 (by decide)).mpr (by decide)

/-- Without rounding numpy computes this mean. -/
theorem fedavg_fin (updates : List (List ℚ)) :
    Erasure.fedavg exactFloat64 (updates.map (List.map Number.fin)) =
      (fedavg updates).map (List.map Number.fin) := by
  rw [Erasure.fedavg, fedavg, Erasure.stack_fin]
  rcases stack_cases updates with ⟨stacked, d, some_, dimension⟩ | ⟨failed, _⟩
  · rw [stacked]
    change Except.ok _ = Except.ok _
    rw [columns_fin some_ dimension]
    intro column length
    apply mean_fin
    rw [Ne, ← List.length_eq_zero_iff, length, List.length_eq_zero_iff]
    exact some_
  · rw [failed]
    rfl

end HorizonRic.OrderAggregation
