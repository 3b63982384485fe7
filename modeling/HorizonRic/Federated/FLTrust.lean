import HorizonRic.Python.Raises
import HorizonRic.Federated.RobustAggregation
import HorizonRic.Library.EuclideanList
import HorizonRic.Library.Coordinates

/-!
FLTrust bounds every adversary. The trusted average is first stated in an inner
product space, where each part has the norm of the root update times its trust
and does not point away from it; the aggregate of the code is that average.
-/
namespace HorizonRic.RobustAggregation
open Py EuclideanList Coordinates
open scoped RealInnerProductSpace

/-! The trusted average. -/

section
variable {E : Type*} [NormedAddCommGroup E] [InnerProductSpace ℝ E] (g₀ : E)

/-- The cosine with the root update, cut off below zero. -/
noncomputable def trust (g : E) : ℝ := max (⟪g, g₀⟫ / (‖g‖ * ‖g₀‖)) 0

/-- An update at the norm of the root update, weighted by its trust. -/
noncomputable def part (g : E) : E := trust g₀ g • (‖g₀‖ / ‖g‖) • g

noncomputable def trustedAverage (gs : List E) : E :=
  ((gs.map (trust g₀)).sum)⁻¹ • (gs.map (part g₀)).sum

theorem trust_nonneg (g : E) : 0 ≤ trust g₀ g := le_max_right _ _

theorem trust_le_one (g : E) : trust g₀ g ≤ 1 := by
  apply max_le
  · exact (abs_le.mp (abs_real_inner_div_norm_mul_norm_le_one g g₀)).2
  · exact zero_le_one

/-- Only updates in the direction of the root update are trusted. -/
theorem trust_eq_zero {g : E} (away : ⟪g, g₀⟫ ≤ 0) : trust g₀ g = 0 :=
  max_eq_right (div_nonpos_of_nonpos_of_nonneg away (by positivity))

theorem trust_smul {c : ℝ} (positive : 0 < c) (g : E) : trust g₀ (c • g) = trust g₀ g := by
  rw [trust, trust, inner_smul_left, norm_smul, Real.norm_of_nonneg positive.le]
  rw [conj_trivial, mul_assoc, mul_div_mul_left _ _ positive.ne']

theorem part_smul {c : ℝ} (positive : 0 < c) (g : E) : part g₀ (c • g) = part g₀ g := by
  rw [part, part, trust_smul g₀ positive, norm_smul, Real.norm_of_nonneg positive.le, smul_smul _ c]
  congr 2
  field_simp

theorem norm_part_le (g : E) : ‖part g₀ g‖ ≤ trust g₀ g * ‖g₀‖ := by
  rw [part, norm_smul, norm_smul, Real.norm_of_nonneg (trust_nonneg g₀ g),
    Real.norm_of_nonneg (by positivity)]
  apply mul_le_mul_of_nonneg_left _ (trust_nonneg g₀ g)
  by_cases zero : ‖g‖ = 0
  · simp [zero]
  · rw [div_mul_cancel₀ _ zero]

theorem inner_part_nonneg (g : E) : 0 ≤ ⟪part g₀ g, g₀⟫ := by
  rw [part, inner_smul_left, inner_smul_left]
  by_cases away : ⟪g, g₀⟫ ≤ 0
  · simp [trust_eq_zero g₀ away]
  · have toward : 0 ≤ ⟪g, g₀⟫ := (not_le.mp away).le
    have weight := trust_nonneg g₀ g
    simp only [conj_trivial]
    positivity

theorem norm_trustedAverage_le {gs : List E} (trusted : 0 < (gs.map (trust g₀)).sum) :
    ‖trustedAverage g₀ gs‖ ≤ ‖g₀‖ := by
  have parts : ∀ xs : List E, ‖(xs.map (part g₀)).sum‖ ≤ (xs.map (trust g₀)).sum * ‖g₀‖ := by
    intro xs
    induction xs with
    | nil => simp
    | cons g rest ih =>
      simp only [List.map_cons, List.sum_cons, add_mul]
      exact (norm_add_le _ _).trans (add_le_add (norm_part_le g₀ g) ih)
  rw [trustedAverage, norm_smul, norm_inv, Real.norm_of_nonneg trusted.le, inv_mul_le_iff₀ trusted]
  exact parts gs

theorem inner_trustedAverage_nonneg {gs : List E} (trusted : 0 < (gs.map (trust g₀)).sum) :
    0 ≤ ⟪trustedAverage g₀ gs, g₀⟫ := by
  have parts : ∀ xs : List E, 0 ≤ ⟪(xs.map (part g₀)).sum, g₀⟫ := by
    intro xs
    induction xs with
    | nil => simp
    | cons g rest ih =>
      simp only [List.map_cons, List.sum_cons, inner_add_left]
      exact add_nonneg (inner_part_nonneg g₀ g) ih
  rw [trustedAverage, inner_smul_left, conj_trivial]
  exact mul_nonneg (inv_nonneg.mpr trusted.le) (parts gs)

end

/-! The code computes the trusted average. -/

/-- The row of a client in the weighted sum. -/
noncomputable def weighted (g0 row : List ℝ) : List ℝ :=
  (scaled Real.sqrt g0 row).map (trustScore Real.sqrt g0 row * ·)

theorem norm_eq {d : ℕ} {row : List ℝ} (length : row.length = d) :
    norm Real.sqrt row = ‖toVec d row‖ := (norm_toVec length).symm

theorem length_weighted {d : ℕ} (g0 : List ℝ) {row : List ℝ} (length : row.length = d) :
    (weighted g0 row).length = d := by
  simp [weighted, scaled, length]

theorem sumRows_eq {d : ℕ} {rows : List (List ℝ)} (lengths : ∀ row ∈ rows, row.length = d) :
    (sumRows d rows).length = d ∧ toVec d (sumRows d rows) = (rows.map (toVec d)).sum := by
  have running : ∀ start : List ℝ, start.length = d →
      (rows.foldl (List.zipWith (· + ·)) start).length = d ∧
        toVec d (rows.foldl (List.zipWith (· + ·)) start) =
          toVec d start + (rows.map (toVec d)).sum := by
    induction rows with
    | nil => simp
    | cons row rest ih =>
      intro start size
      have same : start.length = row.length := by rw [size, lengths row List.mem_cons_self]
      have next := ih (fun other member => lengths other (List.mem_cons_of_mem _ member))
        (List.zipWith (· + ·) start row) (by simp [size, lengths row List.mem_cons_self])
      rw [List.foldl_cons, List.map_cons, List.sum_cons, ← add_assoc, ← toVec_zipWith_add same]
      exact next
  have whole := running (List.replicate d 0) (by simp)
  rwa [toVec_replicate_zero, zero_add] at whole

section
variable {d : ℕ} {g0 : List ℝ} (root : g0.length = d)
include root

theorem trustScore_eq {row : List ℝ} (length : row.length = d) :
    trustScore Real.sqrt g0 row = trust (toVec d g0) (toVec d row) := by
  rw [trustScore, safe, norm_eq length, norm_eq root, dot, ← inner_toVec length root]
  by_cases positive : 0 < ‖toVec d row‖
  · rw [if_pos positive, if_pos positive, trust]
  · have zero : toVec d row = 0 := by
      rw [← norm_eq_zero]
      exact le_antisymm (not_lt.mp positive) (norm_nonneg _)
    rw [if_neg positive, trust_eq_zero _ (by rw [zero, inner_zero_left])]

theorem weighted_eq {row : List ℝ} (length : row.length = d) :
    toVec d (weighted g0 row) = part (toVec d g0) (toVec d row) := by
  have commuted : scaled Real.sqrt g0 row =
      row.map ((norm Real.sqrt g0 / safe Real.sqrt row) * ·) := by
    simp [scaled, mul_comm]
  rw [weighted, toVec_map_mul, commuted, toVec_map_mul, trustScore_eq root length, part]
  by_cases positive : 0 < norm Real.sqrt row
  · rw [safe, if_pos positive, norm_eq root, norm_eq length]
  · have zero : toVec d row = 0 := by
      rw [← norm_eq_zero, ← norm_eq length]
      exact le_antisymm (not_lt.mp positive) (by rw [norm_eq length]; exact norm_nonneg _)
    simp [zero]

/-- The trust scores of the clients. -/
noncomputable def scores (g0 : List ℝ) (updates : List (List ℝ)) : List ℝ :=
  updates.map (trustScore Real.sqrt g0)

noncomputable def average (g0 : List ℝ) (updates : List (List ℝ)) : List ℝ :=
  (sumRows g0.length (updates.map (weighted g0))).map (· / (scores g0 updates).sum)

/-- The three outcomes: no root direction, no trusted client, the trusted average. -/
theorem fltrust_eq {updates : List (List ℝ)} (some_ : updates ≠ [])
    (dimension : ∀ u ∈ updates, u.length = d) :
    fltrust Real.sqrt updates g0 = .ok
      (if norm Real.sqrt g0 = 0 then
        { aggregate := List.replicate d 0, trustScores := updates.map fun _ => 0, rootNorm := 0 }
      else
        { aggregate := if (scores g0 updates).sum ≤ 0 then g0 else average g0 updates
          trustScores := scores g0 updates, rootNorm := norm Real.sqrt g0 }) := by
  have head : (updates.headD []).length = g0.length := by
    cases updates with
    | nil => contradiction
    | cons first rest => rw [List.headD_cons, dimension first List.mem_cons_self, root]
  rw [fltrust, stack_ok some_ dimension, ok_bind, if_neg (not_not.mpr head)]
  by_cases zero : norm Real.sqrt g0 = 0
  · rw [if_pos zero, if_pos zero, ← root, ← List.map_const']
    rfl
  · rw [if_neg zero, if_neg zero]
    by_cases none_ : (scores g0 updates).sum ≤ 0
    · rw [if_pos none_]
      exact if_pos none_
    · rw [if_neg none_]
      exact if_neg none_

theorem average_eq {updates : List (List ℝ)} (dimension : ∀ u ∈ updates, u.length = d) :
    (average g0 updates).length = d ∧
      toVec d (average g0 updates) = trustedAverage (toVec d g0) (updates.map (toVec d)) := by
  have lengths : ∀ row ∈ updates.map (weighted g0), row.length = d := by
    intro row member
    obtain ⟨u, among, rfl⟩ := List.mem_map.mp member
    exact length_weighted g0 (dimension u among)
  obtain ⟨size, vector⟩ := sumRows_eq lengths
  have parts : (updates.map (weighted g0)).map (toVec d) =
      (updates.map (toVec d)).map (part (toVec d g0)) := by
    rw [List.map_map, List.map_map]
    exact List.map_congr_left fun u member => weighted_eq root (dimension u member)
  have total : scores g0 updates = (updates.map (toVec d)).map (trust (toVec d g0)) := by
    rw [scores, List.map_map]
    exact List.map_congr_left fun u member => trustScore_eq root (dimension u member)
  have divided : average g0 updates = (sumRows d (updates.map (weighted g0))).map
      (((scores g0 updates).sum)⁻¹ * ·) := by
    rw [average, root]
    simp [div_eq_inv_mul]
  constructor
  · rw [divided, List.length_map, size]
  · rw [divided, toVec_map_mul, vector, parts, total, trustedAverage]

/-- Replacing an update by one with the same trust and the same weighted row changes nothing. -/
theorem fltrust_set {updates : List (List ℝ)} {i : ℕ} {u v : List ℝ}
    (dimension : ∀ u ∈ updates, u.length = d) (found : updates[i]? = some u)
    (length : v.length = d)
    (sameTrust : trust (toVec d g0) (toVec d v) = trust (toVec d g0) (toVec d u))
    (samePart : part (toVec d g0) (toVec d v) = part (toVec d g0) (toVec d u)) :
    fltrust Real.sqrt (updates.set i v) g0 = fltrust Real.sqrt updates g0 := by
  have lengthU : u.length = d := dimension u (List.mem_of_getElem? found)
  have dimension' : ∀ w ∈ updates.set i v, w.length = d := by
    intro w member
    rcases List.mem_or_eq_of_mem_set member with old | rfl
    · exact dimension w old
    · exact length
  have unchanged : ∀ {β : Type} (f : List ℝ → β), f v = f u →
      (updates.set i v).map f = updates.map f := fun f same => map_set_same f found same
  have trusts := unchanged (trustScore Real.sqrt g0)
    (by rw [trustScore_eq root length, trustScore_eq root lengthU, sameTrust])
  have rows := unchanged (weighted g0)
    (toVec_injective (length_weighted g0 length) (length_weighted g0 lengthU)
      (by rw [weighted_eq root length, weighted_eq root lengthU, samePart]))
  have some_ : updates ≠ [] := List.ne_nil_of_mem (List.mem_of_getElem? found)
  have some' : updates.set i v ≠ [] := by simpa using some_
  have zeros : (updates.set i v).map (fun _ => (0 : ℝ)) = updates.map fun _ => 0 := unchanged _ rfl
  have sameScores : scores g0 (updates.set i v) = scores g0 updates := trusts
  have sameAverage : average g0 (updates.set i v) = average g0 updates := by
    rw [average, sameScores, rows, average]
  rw [fltrust_eq root some_ dimension, fltrust_eq root some' dimension', zeros, sameScores,
    sameAverage]

theorem scores_range {updates : List (List ℝ)} (dimension : ∀ u ∈ updates, u.length = d) :
    ∀ s ∈ scores g0 updates, 0 ≤ s ∧ s ≤ 1 := by
  intro s member
  obtain ⟨u, among, rfl⟩ := List.mem_map.mp member
  rw [trustScore_eq root (dimension u among)]
  exact ⟨trust_nonneg _ _, trust_le_one _ _⟩

/-- The aggregate of each outcome is in the ball of the root update and not against it. -/
theorem aggregate_bounded {updates : List (List ℝ)} (dimension : ∀ u ∈ updates, u.length = d) :
    let aggregate := if norm Real.sqrt g0 = 0 then List.replicate d 0
      else if (scores g0 updates).sum ≤ 0 then g0 else average g0 updates
    norm Real.sqrt aggregate ≤ norm Real.sqrt g0 ∧ 0 ≤ dot aggregate g0 := by
  intro aggregate
  have bounded : aggregate.length = d ∧ ‖toVec d aggregate‖ ≤ ‖toVec d g0‖ ∧
      0 ≤ ⟪toVec d aggregate, toVec d g0⟫ := by
    by_cases zero : norm Real.sqrt g0 = 0
    · simp [aggregate, zero, toVec_replicate_zero]
    by_cases none_ : (scores g0 updates).sum ≤ 0
    · simp [aggregate, zero, none_, root]
    have total : ((updates.map (toVec d)).map (trust (toVec d g0))).sum =
        (scores g0 updates).sum := by
      rw [scores, List.map_map]
      exact congrArg List.sum
        (List.map_congr_left fun u member => (trustScore_eq root (dimension u member)).symm)
    have trusted : 0 < ((updates.map (toVec d)).map (trust (toVec d g0))).sum := by
      rw [total]
      exact not_le.mp none_
    obtain ⟨size, vector⟩ := average_eq root dimension
    simp only [aggregate, zero, none_, if_false, vector]
    exact ⟨size, norm_trustedAverage_le _ trusted, inner_trustedAverage_nonneg _ trusted⟩
  obtain ⟨size, ball, toward⟩ := bounded
  rw [norm_eq size, norm_eq root, dot, ← inner_toVec size root]
  exact ⟨ball, toward⟩

end

/-- No choice of updates moves the aggregate outside the ball of the root update or against its
    direction, and neither magnitude nor an update away from the root changes it. -/
theorem fltrust_bounds_adversaries (d : ℕ) (g0 : List ℝ) (updates : List (List ℝ))
    (root : g0.length = d) (some_ : updates ≠ []) (dimension : ∀ u ∈ updates, u.length = d) :
    ∃ result, fltrust Real.sqrt updates g0 = .ok result ∧
      (norm Real.sqrt result.aggregate ≤ norm Real.sqrt g0 ∧ 0 ≤ dot result.aggregate g0) ∧
      (∀ s ∈ result.trustScores, 0 ≤ s ∧ s ≤ 1) ∧
      (∀ (i : ℕ) (u : List ℝ) (c : ℝ), updates[i]? = some u → 0 < c →
        ∃ scaled, fltrust Real.sqrt (updates.set i (u.map (c * ·))) g0 = .ok scaled ∧
          scaled.aggregate = result.aggregate ∧ scaled.trustScores = result.trustScores) ∧
      (∀ (i : ℕ) (u v : List ℝ), updates[i]? = some u → v.length = d →
        dot u g0 ≤ 0 → dot v g0 ≤ 0 →
        ∃ replaced, fltrust Real.sqrt (updates.set i v) g0 = .ok replaced ∧
          replaced.aggregate = result.aggregate) := by
  refine ⟨_, fltrust_eq root some_ dimension, ?_, ?_, ?_, ?_⟩
  · have bounded := aggregate_bounded root dimension
    split
    · rwa [if_pos (by assumption)] at bounded
    · rwa [if_neg (by assumption)] at bounded
  · split
    · intro s member
      obtain ⟨u, _, rfl⟩ := List.mem_map.mp member
      exact ⟨le_rfl, zero_le_one⟩
    · exact scores_range root dimension
  · intro i u c found positive
    refine ⟨_, (fltrust_set root dimension found ?_ ?_ ?_).trans
      (fltrust_eq root some_ dimension), rfl, rfl⟩
    · simpa using dimension u (List.mem_of_getElem? found)
    · rw [toVec_map_mul, trust_smul _ positive]
    · rw [toVec_map_mul, part_smul _ positive]
  · intro i u v found length awayU awayV
    have lengthU := dimension u (List.mem_of_getElem? found)
    rw [dot, ← inner_toVec lengthU root] at awayU
    rw [dot, ← inner_toVec length root] at awayV
    have zeroU := trust_eq_zero _ awayU
    have zeroV := trust_eq_zero _ awayV
    refine ⟨_, (fltrust_set root dimension found length ?_ ?_).trans
      (fltrust_eq root some_ dimension), rfl⟩
    · rw [zeroU, zeroV]
    · rw [part, part, zeroU, zeroV, zero_smul, zero_smul]

/-- A client against the root update and one along it. -/
theorem fltrust_bounds_adversaries_two :
    ∃ result, fltrust Real.sqrt [[-5], [1]] [1] = .ok result ∧ 0 ≤ dot result.aggregate [1] := by
  obtain ⟨result, answer, ⟨_, toward⟩, _⟩ :=
    fltrust_bounds_adversaries 1 [1] [[-5], [1]] rfl (by simp) (by simp)
  exact ⟨result, answer, toward⟩

theorem fltrust_no_clients :
    ¬∀ (d : ℕ) (g0 : List ℝ) (updates : List (List ℝ)), g0.length = d →
      (∀ u ∈ updates, u.length = d) → ∃ result, fltrust Real.sqrt updates g0 = .ok result ∧
        norm Real.sqrt result.aggregate ≤ norm Real.sqrt g0 ∧ 0 ≤ dot result.aggregate g0 := by
  intro bounded
  obtain ⟨result, answer, _⟩ := bounded 1 [1] [] rfl (by simp)
  cases answer

end HorizonRic.RobustAggregation
