import HorizonRic.Python.Raises
import HorizonRic.Federated.RobustAggregation
import HorizonRic.Library.Coordinates
import HorizonRic.Library.OrderStatistics
import Mathlib.Algebra.BigOperators.Field
import Mathlib.Tactic.Positivity
import Mathlib.Tactic.FieldSimp

/-!
Krum resists Byzantine clients: the selected update is close to an honest one,
whatever the others send. The selected score is at most an honest one, which has
honest neighbours enough; and among the neighbours of a Byzantine update honest
ones remain, since fewer than `f` others are Byzantine.
-/
namespace HorizonRic.RobustAggregation
open Py OrderStatistics Coordinates

variable {K : Type*} [Field K] [LinearOrder K] [IsStrictOrderedRing K]

omit [LinearOrder K] [IsStrictOrderedRing K] in
theorem sqDist_self (u : List K) : sqDist u u = 0 := by
  induction u with
  | nil => rfl
  | cons a rest ih =>
    simp only [sqDist, List.zipWith_cons_cons, List.sum_cons] at ih ⊢
    rw [ih]
    ring

theorem sqDist_nonneg (u v : List K) : 0 ≤ sqDist u v := by
  apply List.sum_nonneg
  intro x member
  rw [← List.map_uncurry_zip_eq_zipWith] at member
  obtain ⟨pair, _, rfl⟩ := List.mem_map.mp member
  exact sq_nonneg _

omit [Field K] [IsStrictOrderedRing K] in
theorem argmin_spec (scores : List K) (some_ : scores ≠ []) :
    ∃ least, scores[argmin scores]? = some least ∧ ∀ s ∈ scores, least ≤ s := by
  obtain ⟨least, member, bound⟩ := Finset.exists_min_image scores.toFinset id
    (List.toFinset_nonempty_iff _ |>.mpr some_)
  have found : argmin scores < scores.length := by
    apply List.findIdx_lt_length_of_exists
    refine ⟨least, List.mem_toFinset.mp member, ?_⟩
    simpa using fun s among => bound s (List.mem_toFinset.mpr among)
  refine ⟨scores[argmin scores], List.getElem?_eq_getElem found, ?_⟩
  have test : scores.all (fun other => scores[argmin scores] ≤ other) = true :=
    List.findIdx_getElem (w := found)
  simpa using test

/-! Scores. -/

/-- Squared distances from the update with number `i` to the other clients. -/
def distances (updates : List (List K)) (i : ℕ) : List K :=
  (updates.eraseIdx i).map (sqDist (updates.getD i []))

/-- How many nearest other clients a score sums. -/
def neighbours (n f : ℕ) : ℕ := n - f - 2

theorem distances_nonneg (updates : List (List K)) (i : ℕ) : ∀ x ∈ distances updates i, 0 ≤ x := by
  intro x member
  obtain ⟨v, _, rfl⟩ := List.mem_map.mp member
  exact sqDist_nonneg _ _

/-- Each client's score: the distances to its nearest other clients. -/
def clientScores (updates : List (List K)) (f : ℕ) : List K :=
  (List.range updates.length).map fun i =>
    smallestSum (neighbours updates.length f) (distances updates i)

omit [IsStrictOrderedRing K] in
theorem getElem?_clientScores {updates : List (List K)} {i : ℕ} (inside : i < updates.length)
    (f : ℕ) : (clientScores updates f)[i]? =
      some (smallestSum (neighbours updates.length f) (distances updates i)) := by
  simp [clientScores, inside]

section
variable {updates : List (List K)} {i : ℕ} (inside : i < updates.length)
include inside

omit [LinearOrder K] [IsStrictOrderedRing K] in
/-- A row of the distance matrix holds the distance to itself and those to the others. -/
theorem row_perm :
    (updates.map (sqDist (updates.getD i []))).Perm (0 :: distances updates i) := by
  have entry : updates.getD i [] = updates[i] := by
    rw [List.getD_eq_getElem?_getD, List.getElem?_eq_getElem inside, Option.getD_some]
  have perm := ((List.getElem_cons_eraseIdx_perm inside).map
    (sqDist (updates.getD i []))).symm
  rwa [List.map_cons, ← entry, sqDist_self] at perm

theorem score_row (m : ℕ) :
    score m (updates.map (sqDist (updates.getD i []))) = smallestSum m (distances updates i) := by
  have sorted := insertionSort_of_perm_cons (row_perm inside) (distances_nonneg updates i)
  have size : ((m : ℤ) + 1).toNat = m + 1 := by omega
  rw [score, sorted, size, List.take_succ_cons, List.drop_succ_cons, List.drop_zero, smallestSum]

omit [LinearOrder K] [IsStrictOrderedRing K] in
theorem count_row (test : K → Bool) :
    updates.countP (fun v => test (sqDist (updates.getD i []) v)) =
      (distances updates i).countP test + if test 0 then 1 else 0 := by
  have perm := (row_perm inside).countP_eq test
  rw [List.countP_map, List.countP_cons] at perm
  exact perm

end

theorem krum_eq {updates : List (List K)} {f d : ℕ} (many : 2 * f + 2 < updates.length)
    (dimension : ∀ u ∈ updates, u.length = d) :
    krum updates f = .ok
      { aggregate := updates.getD (argmin (clientScores updates f)) []
        selectedIndex := argmin (clientScores updates f)
        scores := clientScores updates f } := by
  have some_ : updates ≠ [] := by
    rintro rfl
    simp at many
  have m : (updates.length : ℤ) - f - 2 = (neighbours updates.length f : ℕ) := by
    unfold neighbours
    omega
  have rows : (updates.map fun row => updates.map (sqDist row)).map
      (score (neighbours updates.length f)) = clientScores updates f := by
    apply List.ext_getElem
    · simp [clientScores]
    · intro i hi _
      have bound : i < updates.length := by simpa using hi
      have entry : updates[i] = updates.getD i [] := by simp [bound]
      simp only [List.getElem_map, List.getElem_range, clientScores, entry]
      exact score_row bound _
  rw [krum, stack_ok some_ dimension, ok_bind, if_neg (by omega)]
  simp only [m, rows]
  rfl

/-! Honest clients. -/

section
variable {updates : List (List K)} {f : ℕ} {D : K} {honest : Finset ℕ}
  (many : 2 * f + 2 < updates.length) (inside : ∀ i ∈ honest, i < updates.length)
  (quorum : updates.length ≤ honest.card + f)
include many inside quorum

omit many in
/-- An honest update has honest neighbours enough. -/
theorem honest_score_le (close : ∀ i ∈ honest, ∀ j ∈ honest,
    sqDist (updates.getD i []) (updates.getD j []) ≤ D ^ 2) {i : ℕ} (member : i ∈ honest) :
    smallestSum (neighbours updates.length f) (distances updates i) ≤
      neighbours updates.length f * D ^ 2 := by
  apply smallestSum_le_of_count
  have near := card_le_countP updates [] (fun v => sqDist (updates.getD i []) v ≤ D ^ 2) inside
    fun j among => by simpa using close i member j among
  have counted := count_row (inside i member) fun x => decide (x ≤ D ^ 2)
  rw [counted] at near
  unfold neighbours
  split at near <;> omega

/-- Among the neighbours of an update that is near no honest one, honest ones remain. -/
theorem far_score_ge {i : ℕ} (selected : i < updates.length) {δ : K} (positive : 0 < δ)
    (far : ∀ j ∈ honest, δ ≤ sqDist (updates.getD i []) (updates.getD j [])) :
    (neighbours updates.length f - f + 1 : ℕ) * δ ≤
      smallestSum (neighbours updates.length f) (distances updates i) := by
  have others : (distances updates i).length = updates.length - 1 := by
    rw [distances, List.length_map, List.length_eraseIdx_of_lt selected]
  have distant := card_le_countP updates [] (fun v => δ ≤ sqDist (updates.getD i []) v) inside
    fun j among => by simpa using far j among
  have complement := List.length_eq_countP_add_countP
    (fun v => sqDist (updates.getD i []) v < δ) (l := updates)
  have same : (updates.countP fun v => ¬decide (sqDist (updates.getD i []) v < δ) = true) =
      updates.countP fun v => δ ≤ sqDist (updates.getD i []) v := by simp
  have counted := count_row selected fun x => decide (x < δ)
  simp only [positive, decide_true, if_true] at counted
  rw [same, counted] at complement
  apply le_smallestSum_of_count (distances_nonneg updates i) positive.le
  · rw [others]
    unfold neighbours
    omega
  · unfold neighbours
    omega

end

/-- Krum selects an input of least score, and it is close to an honest update. -/
theorem krum_resists_byzantine (updates : List (List K)) (d f : ℕ) (D : K) (honest : Finset ℕ)
    (many : 2 * f + 2 < updates.length) (dimension : ∀ u ∈ updates, u.length = d)
    (inside : ∀ i ∈ honest, i < updates.length) (quorum : updates.length - f ≤ honest.card)
    (close : ∀ i ∈ honest, ∀ j ∈ honest,
      sqDist (updates.getD i []) (updates.getD j []) ≤ D ^ 2) :
    ∃ result, krum updates f = .ok result ∧
      updates[result.selectedIndex]? = some result.aggregate ∧
      result.scores = clientScores updates f ∧
      (∃ least, result.scores[result.selectedIndex]? = some least ∧
        ∀ s ∈ result.scores, least ≤ s) ∧
      ∃ h ∈ honest, sqDist result.aggregate (updates.getD h []) ≤
        neighbours updates.length f * D ^ 2 / ((neighbours updates.length f : K) - f + 1) := by
  have quorum' : updates.length ≤ honest.card + f := by omega
  obtain ⟨least, found, bound⟩ := argmin_spec (clientScores updates f) (by
    apply List.ne_nil_of_length_pos
    simp only [clientScores, List.length_map, List.length_range]
    omega)
  let s := argmin (clientScores updates f)
  have selected : s < updates.length := by
    have index := (List.getElem?_eq_some_iff.mp found).1
    rwa [clientScores, List.length_map, List.length_range] at index
  refine ⟨_, krum_eq many dimension, ?_, rfl, ⟨least, found, bound⟩, ?_⟩
  · change updates[s]? = some (updates.getD s [])
    simp [selected]
  obtain ⟨h, member, nearest⟩ := Finset.exists_min_image honest
    (fun j => sqDist (updates.getD s []) (updates.getD j [])) (Finset.card_pos.mp (by omega))
  refine ⟨h, member, ?_⟩
  have divisor : ((neighbours updates.length f : K) - f + 1) =
      (neighbours updates.length f - f + 1 : ℕ) := by
    have less : f ≤ neighbours updates.length f := by
      unfold neighbours
      omega
    push_cast [less]
    ring
  rw [divisor, le_div_iff₀ (by positivity), mul_comm]
  by_cases positive : 0 < sqDist (updates.getD s []) (updates.getD h [])
  · have least_eq := Option.some.inj (found.symm.trans (getElem?_clientScores selected f))
    have honestScore := List.mem_of_getElem? (getElem?_clientScores (inside h member) f)
    calc _ ≤ smallestSum (neighbours updates.length f) (distances updates s) :=
          far_score_ge many inside quorum' selected positive nearest
      _ = least := least_eq.symm
      _ ≤ smallestSum (neighbours updates.length f) (distances updates h) := bound _ honestScore
      _ ≤ neighbours updates.length f * D ^ 2 := honest_score_le inside quorum' close member
  · have zero := le_antisymm (not_lt.mp positive) (sqDist_nonneg _ _)
    change _ * sqDist (updates.getD s []) (updates.getD h []) ≤ _
    rw [zero, mul_zero]
    positivity

/-- Four honest clients within one and a Byzantine one. -/
theorem krum_resists_byzantine_five :
    ∃ result, krum [[0], [1], [0], [1], [(9 : ℚ)]] 1 = .ok result ∧
      ∃ h ∈ ({0, 1, 2, 3} : Finset ℕ),
        sqDist result.aggregate ([[0], [1], [0], [1], [(9 : ℚ)]].getD h []) ≤ 1 := by
  obtain ⟨result, answer, _, _, _, h, member, near⟩ :=
    krum_resists_byzantine [[0], [1], [0], [1], [(9 : ℚ)]] 1 1 1 {0, 1, 2, 3} (by decide)
      (by decide) (by decide) (by decide) (by simp [sqDist])
  refine ⟨result, answer, h, member, near.trans ?_⟩
  norm_num [neighbours]

end HorizonRic.RobustAggregation
