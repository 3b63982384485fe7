import Mathlib.Data.List.Sort
import Mathlib.Data.List.Pairwise
import Mathlib.Data.Finset.Card
import Mathlib.Algebra.Order.BigOperators.Group.List
import Mathlib.Algebra.Order.Field.Basic
import Mathlib.Tactic.Linarith

/-!
The sum of the least entries of a list. It is the least sum of as many entries,
and counting the entries below a bound or above one bounds it on either side. An
entry that is not among the least ones or the greatest ones lies between two entries
outside every set of as few positions.
-/
namespace OrderStatistics

variable {K : Type*} [Field K] [LinearOrder K]

/-- The sum of the `m` least entries. -/
def smallestSum (m : ℕ) (xs : List K) : K := ((xs.insertionSort (· ≤ ·)).take m).sum

omit [Field K] in
/-- Sorting puts an entry that is at most every other one in front. -/
theorem insertionSort_of_perm_cons {x : K} {xs rest : List K} (perm : xs.Perm (x :: rest))
    (least : ∀ y ∈ rest, x ≤ y) :
    xs.insertionSort (· ≤ ·) = x :: rest.insertionSort (· ≤ ·) := by
  have sorted : (x :: rest.insertionSort (· ≤ ·)).Pairwise (· ≤ ·) := by
    refine List.pairwise_cons.mpr ⟨fun y member => ?_, List.pairwise_insertionSort _ _⟩
    exact least y ((List.mem_insertionSort (· ≤ ·)).mp member)
  have perms : (xs.insertionSort (· ≤ ·)).Perm (x :: rest.insertionSort (· ≤ ·)) :=
    (List.perm_insertionSort _ _).trans
      (perm.trans (List.Perm.cons x (List.perm_insertionSort _ _).symm))
  exact perms.eq_of_pairwise (fun _ _ _ _ => le_antisymm) (List.pairwise_insertionSort _ _) sorted

variable [IsStrictOrderedRing K]

theorem sum_take_cons_le (k : ℕ) (x : K) (xs : List K) (sorted : (x :: xs).Pairwise (· ≤ ·))
    (enough : k ≤ xs.length) : ((x :: xs).take k).sum ≤ (xs.take k).sum := by
  induction k generalizing x xs with
  | zero => simp
  | succ k ih =>
    cases xs with
    | nil => simp at enough
    | cons y ys =>
      have first : x ≤ y := (List.pairwise_cons.mp sorted).1 y List.mem_cons_self
      have later := ih y ys (List.pairwise_cons.mp sorted).2 (Nat.le_of_succ_le_succ enough)
      simp only [List.take_succ_cons, List.sum_cons] at later ⊢
      exact add_le_add first later

theorem sum_take_le_of_sublist {xs ys : List K} (sub : ys.Sublist xs)
    (sorted : xs.Pairwise (· ≤ ·)) : (xs.take ys.length).sum ≤ ys.sum := by
  induction sub with
  | slnil => simp
  | @cons ys xs x sub ih =>
    have rest := (List.pairwise_cons.mp sorted).2
    exact (sum_take_cons_le _ x xs sorted sub.length_le).trans (ih rest)
  | cons_cons x sub ih =>
    have rest := ih (List.pairwise_cons.mp sorted).2
    simp only [List.length_cons, List.take_succ_cons, List.sum_cons]
    exact add_le_add le_rfl rest

theorem smallestSum_le {xs ys : List K} (sub : ys.Subperm xs) :
    smallestSum ys.length xs ≤ ys.sum := by
  have perm := List.perm_insertionSort (· ≤ ·) ys
  have sublist : (ys.insertionSort (· ≤ ·)).Sublist (xs.insertionSort (· ≤ ·)) := by
    refine List.sublist_of_subperm_of_pairwise ?_ (List.pairwise_insertionSort _ _)
      (List.pairwise_insertionSort _ _)
    exact perm.subperm.trans (sub.trans (List.perm_insertionSort (· ≤ ·) xs).symm.subperm)
  have least := sum_take_le_of_sublist sublist (List.pairwise_insertionSort _ _)
  rwa [perm.length_eq, perm.sum_eq] at least

/-- Enough entries below a bound keep the sum below its multiple. -/
theorem smallestSum_le_of_count {xs : List K} {m : ℕ} {bound : K}
    (many : m ≤ xs.countP (· ≤ bound)) : smallestSum m xs ≤ m * bound := by
  let ys := (xs.filter (· ≤ bound)).take m
  have length : ys.length = m := by
    rw [List.length_take, ← List.countP_eq_length_filter]
    exact min_eq_left many
  have sublist : ys.Sublist xs := (List.take_sublist _ _).trans List.filter_sublist
  have below : ∀ y ∈ ys, y ≤ bound := by
    intro y member
    simpa using (List.mem_filter.mp (List.mem_of_mem_take member)).2
  calc smallestSum m xs ≤ ys.sum := by
        rw [← length]
        exact smallestSum_le sublist.subperm
    _ ≤ ys.length • bound := List.sum_le_card_nsmul ys bound below
    _ = m * bound := by rw [length, nsmul_eq_mul]

theorem count_mul_le_sum (xs : List K) (bound : K) (nonneg : ∀ x ∈ xs, 0 ≤ x) :
    (xs.countP (bound ≤ ·) : K) * bound ≤ xs.sum := by
  induction xs with
  | nil => simp
  | cons x rest ih =>
    have tail := ih fun y member => nonneg y (List.mem_cons_of_mem _ member)
    have head := nonneg x List.mem_cons_self
    rw [List.countP_cons, List.sum_cons]
    by_cases above : bound ≤ x
    · simp only [above, decide_true, if_true]
      push_cast
      linarith
    · simp only [above, decide_false]
      push_cast
      linarith

/-- Few entries below a bound keep the sum above a multiple of it. -/
theorem le_smallestSum_of_count {xs : List K} {m k : ℕ} {bound : K}
    (nonneg : ∀ x ∈ xs, 0 ≤ x) (positive : 0 ≤ bound) (enough : m ≤ xs.length)
    (few : k + xs.countP (· < bound) ≤ m) : k * bound ≤ smallestSum m xs := by
  let ys := (xs.insertionSort (· ≤ ·)).take m
  have perm := List.perm_insertionSort (· ≤ ·) xs
  have length : ys.length = m := by
    rw [List.length_take, perm.length_eq]
    exact min_eq_left enough
  have nonneg' : ∀ y ∈ ys, 0 ≤ y := fun y member =>
    nonneg y (perm.subset (List.mem_of_mem_take member))
  have less : ys.countP (· < bound) ≤ xs.countP (· < bound) :=
    ((List.take_sublist _ _).countP_le).trans_eq (perm.countP_eq _)
  have complement := List.length_eq_countP_add_countP (· < bound) (l := ys)
  have more : k ≤ ys.countP (bound ≤ ·) := by
    have same : (ys.countP fun y => decide ¬(decide (y < bound) = true)) = ys.countP (bound ≤ ·) := by
      simp
    rw [same] at complement
    omega
  calc (k : K) * bound ≤ (ys.countP (bound ≤ ·) : K) * bound :=
        mul_le_mul_of_nonneg_right (by exact_mod_cast more) positive
    _ ≤ ys.sum := count_mul_le_sum ys bound nonneg'

section
variable {α : Type*} [LinearOrder α]

omit [LinearOrder α] in
/-- A property of more entries than there are exceptions is one of another entry. -/
theorem exists_outside {p : α → Bool} {xs : List α} {exceptions : Finset ℕ}
    (many : exceptions.card < xs.countP p) :
    ∃ i, ∃ inside : i < xs.length, i ∉ exceptions ∧ p xs[i] = true := by
  let positions := (List.finRange xs.length).filter fun i => p (xs.get i)
  have count : positions.length = xs.countP p := by
    have rest := List.countP_map (p := p) (f := xs.get) (l := List.finRange xs.length)
    rw [List.map_get_finRange] at rest
    rw [rest, List.countP_eq_length_filter]
    rfl
  have nodup : (positions.map Fin.val).Nodup :=
    ((List.nodup_finRange _).filter _).map Fin.val_injective
  have card : (positions.map Fin.val).toFinset.card = xs.countP p := by
    rw [List.toFinset_card_of_nodup nodup, List.length_map, count]
  obtain ⟨i, member, outside⟩ := Finset.exists_mem_notMem_of_card_lt_card (card ▸ many)
  obtain ⟨position, among, rfl⟩ := List.mem_map.mp (List.mem_toFinset.mp member)
  exact ⟨position, position.isLt, outside, (List.mem_filter.mp among).2⟩

theorem lt_countP_le {sorted : List α} (ordered : sorted.Pairwise (· ≤ ·)) {k : ℕ}
    (inside : k < sorted.length) : k < sorted.countP (· ≤ sorted[k]) := by
  have below : (sorted.take (k + 1)).countP (· ≤ sorted[k]) = k + 1 := by
    rw [List.countP_eq_length.mpr, List.length_take, min_eq_left (by omega)]
    intro x member
    obtain ⟨j, short, rfl⟩ := List.mem_iff_getElem.mp member
    rw [List.length_take] at short
    rw [List.getElem_take, decide_eq_true_eq]
    exact ordered.rel_get_of_le (a := ⟨j, by omega⟩) (b := ⟨k, inside⟩) (Fin.mk_le_mk.mpr (by omega))
  have part := (List.take_sublist (k + 1) sorted).countP_le (p := (· ≤ sorted[k]))
  omega

theorem le_countP_ge {sorted : List α} (ordered : sorted.Pairwise (· ≤ ·)) {k : ℕ}
    (inside : k < sorted.length) : sorted.length ≤ k + sorted.countP (sorted[k] ≤ ·) := by
  have above : (sorted.drop k).countP (sorted[k] ≤ ·) = sorted.length - k := by
    rw [List.countP_eq_length.mpr, List.length_drop]
    intro x member
    obtain ⟨j, short, rfl⟩ := List.mem_iff_getElem.mp member
    rw [List.length_drop] at short
    rw [List.getElem_drop, decide_eq_true_eq]
    exact ordered.rel_get_of_le (a := ⟨k, inside⟩) (b := ⟨k + j, by omega⟩) (Fin.mk_le_mk.mpr (by omega))
  have part := (List.drop_sublist k sorted).countP_le (p := (sorted[k] ≤ ·))
  omega

/-- Some entry outside the exceptions is at most `y`, and some other one at least. -/
def Bracketed (xs : List α) (exceptions : Finset ℕ) (y : α) : Prop :=
  (∃ i, ∃ inside : i < xs.length, i ∉ exceptions ∧ xs[i] ≤ y) ∧
    ∃ i, ∃ inside : i < xs.length, i ∉ exceptions ∧ y ≤ xs[i]

/-- What is left of the sorted list without as many least and greatest entries as there are
    exceptions is bracketed. -/
theorem bracketed_of_mem_middle {xs : List α} {exceptions : Finset ℕ} {first last : ℕ}
    (low : exceptions.card ≤ first) (high : last + exceptions.card ≤ xs.length) {y : α}
    (member : y ∈ ((xs.insertionSort (· ≤ ·)).take last).drop first) :
    Bracketed xs exceptions y := by
  have perm := List.perm_insertionSort (· ≤ ·) xs
  have ordered := List.pairwise_insertionSort (· ≤ ·) xs
  have length := perm.length_eq
  obtain ⟨j, short, rfl⟩ := List.mem_iff_getElem.mp member
  rw [List.length_drop, List.length_take] at short
  rw [List.getElem_drop, List.getElem_take]
  have inside : first + j < (xs.insertionSort (· ≤ ·)).length := by omega
  constructor
  · have count := lt_countP_le ordered inside
    rw [perm.countP_eq] at count
    have many := lt_of_le_of_lt (show exceptions.card ≤ first + j by omega) count
    obtain ⟨i, among, outside, small⟩ := exists_outside many
    exact ⟨i, among, outside, of_decide_eq_true small⟩
  · have count := le_countP_ge ordered inside
    rw [perm.countP_eq] at count
    have many := lt_of_add_lt_add_left
      (lt_of_lt_of_le (show first + j + exceptions.card < _ by omega) count)
    obtain ⟨i, among, outside, great⟩ := exists_outside many
    exact ⟨i, among, outside, of_decide_eq_true great⟩

end

/-- Entries that are at least every other one are sorted to the end. -/
theorem insertionSort_append_replicate {α : Type*} [LinearOrder α] {xs : List α} {top : α}
    (below : ∀ x ∈ xs, x ≤ top) (m : ℕ) :
    (xs ++ List.replicate m top).insertionSort (· ≤ ·) =
      xs.insertionSort (· ≤ ·) ++ List.replicate m top := by
  have sorted : (xs.insertionSort (· ≤ ·) ++ List.replicate m top).Pairwise (· ≤ ·) := by
    refine List.pairwise_append.mpr ⟨List.pairwise_insertionSort _ _, ?_, ?_⟩
    · exact List.pairwise_replicate.mpr (Or.inr le_rfl)
    · intro x member y among
      rw [List.eq_of_mem_replicate among]
      exact below x ((List.mem_insertionSort (· ≤ ·)).mp member)
  have perms : ((xs ++ List.replicate m top).insertionSort (· ≤ ·)).Perm
      (xs.insertionSort (· ≤ ·) ++ List.replicate m top) :=
    (List.perm_insertionSort _ _).trans
      (List.Perm.append_right _ (List.perm_insertionSort _ _).symm)
  exact perms.eq_of_pairwise (fun _ _ _ _ => le_antisymm) (List.pairwise_insertionSort _ _) sorted

/-- One great entry carries the mean away from a lower bound of the others. -/
theorem le_mean_of_mem {ys : List K} {low top : K} (each : ∀ y ∈ ys, low ≤ y) (member : top ∈ ys) :
    low + (top - low) / ys.length ≤ ys.sum / ys.length := by
  have positive : (0 : K) < ys.length := by exact_mod_cast List.length_pos_of_mem member
  have least : ys.length * low + (top - low) ≤ ys.sum := by
    clear positive
    induction ys with
    | nil => cases member
    | cons y rest ih =>
      have first := each y List.mem_cons_self
      have later := fun z among => each z (List.mem_cons_of_mem y among)
      rw [List.sum_cons, List.length_cons]
      push_cast
      rcases List.mem_cons.mp member with rfl | among
      · have others : rest.length * low ≤ rest.sum := by
          have total := List.card_nsmul_le_sum rest low later
          rwa [nsmul_eq_mul] at total
        linarith
      · linarith [ih later among]
  rw [le_div_iff₀ positive, add_mul, div_mul_cancel₀ _ positive.ne']
  linarith

/-- Between entries that are bracketed, the mean is bracketed. -/
theorem bracketed_mean {xs ys : List K} {exceptions : Finset ℕ} (some_ : ys ≠ [])
    (each : ∀ y ∈ ys, Bracketed xs exceptions y) :
    Bracketed xs exceptions (ys.sum / ys.length) := by
  have positive : (0 : K) < ys.length := by exact_mod_cast List.length_pos_iff.mpr some_
  have total : (ys.map fun _ => ys.sum / ys.length).sum = (ys.map id).sum := by
    rw [List.map_const', List.sum_replicate, nsmul_eq_mul, List.map_id, mul_div_cancel₀ _ positive.ne']
  obtain ⟨y, among, small⟩ := List.exists_le_of_sum_le some_ _ _ total.symm.le
  obtain ⟨z, among', great⟩ := List.exists_le_of_sum_le some_ _ _ total.le
  obtain ⟨⟨i, inside, outside, below⟩, _⟩ := each y among
  obtain ⟨_, ⟨j, inside', outside', above⟩⟩ := each z among'
  exact ⟨⟨i, inside, outside, below.trans small⟩, ⟨j, inside', outside', great.trans above⟩⟩

end OrderStatistics
