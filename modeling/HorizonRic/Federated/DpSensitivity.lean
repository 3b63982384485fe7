import HorizonRic.Federated.DifferentialPrivacy
import HorizonRic.Federated.FLTrust
import HorizonRic.Library.ClippedSum

/-!
The sensitivity of the two releases. The sum of the clipped updates moves by at most
what `DPConfig.sensitivity` says, so a shift of the noise makes up for a neighbouring
cohort. The average divides by the number of clients as well, which no shift makes up for.
-/
namespace HorizonRic.DifferentialPrivacy
open Py RobustAggregation EuclideanList ClippedSum

/-- One client's update is replaced, or one client is added or removed. -/
inductive Adjacent {α : Type} : String → List α → List α → Prop
  | replace (before after : List α) (a b : α) :
      Adjacent Adjacency.replaceOne (before ++ a :: after) (before ++ b :: after)
  | remove (before after : List α) (a : α) :
      Adjacent Adjacency.addRemove (before ++ a :: after) (before ++ after)
  | add (before after : List α) (a : α) :
      Adjacent Adjacency.addRemove (before ++ after) (before ++ a :: after)

/-- Cohorts of `d`-dimensional updates, neither of them empty. -/
structure Neighbours (cfg : DPConfig ℝ) (d : ℕ) (cohort cohort' : List (List ℝ)) : Prop where
  adjacent : Adjacent cfg.adjacency cohort cohort'
  some_ : cohort ≠ []
  some' : cohort' ≠ []
  dimension : ∀ u ∈ cohort, u.length = d
  dimension' : ∀ u ∈ cohort', u.length = d

abbrev Release := List (List ℝ) → List ℝ → Option (RDPAccountant ℝ) →
  Except PyErr (List ℝ × Option (RDPAccountant ℝ))

/-- With its noise shifted by `v` the release of `cohort'` is that of `cohort`. -/
def Couples (release : Release) (d : ℕ) (cohort cohort' : List (List ℝ)) (v : List ℝ) : Prop :=
  v.length = d ∧ ∀ noise : List ℝ, noise.length = d →
    (∃ released, release cohort noise none = .ok released) ∧
      ∀ accountant, release cohort noise accountant =
        release cohort' (List.zipWith (· + ·) noise v) accountant

variable {cfg : DPConfig ℝ} {d : ℕ} {cohort cohort' : List (List ℝ)}

/-! The clipped sum. -/

/-- What `l2Clip` returns for a positive clip norm. -/
noncomputable def clipped (clipNorm : ℝ) (update : List ℝ) : List ℝ :=
  if norm Real.sqrt update ≤ clipNorm ∨ norm Real.sqrt update = 0 then update
  else update.map (· * (clipNorm / norm Real.sqrt update))

theorem l2Clip_eq {clipNorm : ℝ} (positive : 0 < clipNorm) (update : List ℝ) :
    l2Clip Real.sqrt update clipNorm = .ok (clipped clipNorm update) := by
  rw [l2Clip, if_neg (not_le.mpr positive), clipped]
  dsimp only
  split
  · rfl
  · rfl

theorem length_clipped (clipNorm : ℝ) (update : List ℝ) :
    (clipped clipNorm update).length = update.length := by
  rw [clipped]
  split
  · rfl
  · rw [List.length_map]

theorem toVec_clipped {clipNorm : ℝ} (positive : 0 < clipNorm) {update : List ℝ}
    (length : update.length = d) :
    toVec d (clipped clipNorm update) = clip clipNorm (toVec d update) := by
  rw [clipped, clip, norm_eq length]
  by_cases short : ‖toVec d update‖ ≤ clipNorm
  · rw [if_pos (Or.inl short), if_pos short]
  · have long : ¬ (‖toVec d update‖ ≤ clipNorm ∨ ‖toVec d update‖ = 0) := by
      rintro (le | zero)
      · exact short le
      · exact short (zero ▸ positive.le)
    have commuted : update.map (· * (clipNorm / ‖toVec d update‖)) =
        update.map (clipNorm / ‖toVec d update‖ * ·) := by
      simp only [mul_comm]
    rw [if_neg long, if_neg short, commuted, toVec_map_mul]

theorem clippedSum_eq (positive : 0 < cfg.clipNorm) (some_ : cohort ≠ [])
    (dimension : ∀ u ∈ cohort, u.length = d) :
    ∃ summed, clippedSum Real.sqrt cohort cfg = .ok summed ∧ summed.length = d ∧
      toVec d summed = total cfg.clipNorm (cohort.map (toVec d)) := by
  have flats : (cohort.mapM fun update => l2Clip Real.sqrt update cfg.clipNorm) =
      .ok (cohort.map (clipped cfg.clipNorm)) := by
    simp only [l2Clip_eq positive]
    exact List.mapM_pure
  have lengths : ∀ row ∈ cohort.map (clipped cfg.clipNorm), row.length = d := by
    intro row member
    obtain ⟨u, among, rfl⟩ := List.mem_map.mp member
    rw [length_clipped, dimension u among]
  have rows : cohort.map (clipped cfg.clipNorm) ≠ [] := by simpa using some_
  have head : ((cohort.map (clipped cfg.clipNorm)).headD []).length = d := by
    cases cohort with
    | nil => contradiction
    | cons first rest => exact lengths _ List.mem_cons_self
  obtain ⟨size, vector⟩ := sumRows_eq lengths
  refine ⟨sumRows d (cohort.map (clipped cfg.clipNorm)), ?_, size, ?_⟩
  · rw [clippedSum, flats, ok_bind, if_neg (by simpa using some_), stack_ok rows lengths, ok_bind,
      head]
  · rw [vector, total, List.map_map, List.map_map]
    congr 1
    exact List.map_congr_left fun u member => toVec_clipped positive (dimension u member)

/-- The clipped sum as a vector. -/
noncomputable def sumOf (cfg : DPConfig ℝ) (d : ℕ) (cohort : List (List ℝ)) :
    EuclideanSpace ℝ (Fin d) := total cfg.clipNorm (cohort.map (toVec d))

theorem sensitivity_cases (relation : cfg.adjacency = Adjacency.replaceOne ∨
      cfg.adjacency = Adjacency.addRemove) :
    cfg.adjacency = Adjacency.replaceOne ∧ cfg.sensitivity = .ok (2 * cfg.clipNorm) ∨
      cfg.adjacency = Adjacency.addRemove ∧ cfg.sensitivity = .ok (1 * cfg.clipNorm) := by
  rcases relation with same | same
  · refine Or.inl ⟨same, ?_⟩
    rw [DPConfig.sensitivity, same]
    rfl
  · refine Or.inr ⟨same, ?_⟩
    rw [DPConfig.sensitivity, same]
    rfl

theorem sensitivity_isOk (relation : cfg.adjacency = Adjacency.replaceOne ∨
      cfg.adjacency = Adjacency.addRemove) : ∃ s, cfg.sensitivity = .ok s := by
  rcases sensitivity_cases relation with ⟨_, known⟩ | ⟨_, known⟩
  · exact ⟨_, known⟩
  · exact ⟨_, known⟩

/-- The sums of neighbouring cohorts are as close as the sensitivity says. -/
theorem norm_sumOf_le (positive : 0 < cfg.clipNorm)
    (adjacent : Adjacent cfg.adjacency cohort cohort') {s : ℝ} (known : cfg.sensitivity = .ok s) :
    ‖sumOf cfg d cohort - sumOf cfg d cohort'‖ ≤ s := by
  generalize relation : cfg.adjacency = adjacency at adjacent
  rw [DPConfig.sensitivity, relation] at known
  cases adjacent with
  | replace before after a b =>
    cases known
    simp only [sumOf, List.map_append, List.map_cons]
    exact norm_replace_le positive.le _ _ _ _
  | remove before after a =>
    cases known
    simp only [sumOf, List.map_append, List.map_cons, one_mul]
    exact norm_insert_le positive.le _ _ _
  | add before after a =>
    cases known
    simp only [sumOf, List.map_append, List.map_cons, one_mul]
    rw [norm_sub_rev]
    exact norm_insert_le positive.le _ _ _

/-! Shifted noise. -/

/-- A release weighs the clipped sum plus the noise by a factor of the cohort's size. -/
def Weighs (release : Release) (cfg : DPConfig ℝ) (weight : ℕ → ℝ) : Prop :=
  ∀ (d : ℕ) (cohort : List (List ℝ)), cohort ≠ [] → (∀ u ∈ cohort, u.length = d) →
    ∃ out : List ℝ → List ℝ,
      (∀ noise : List ℝ, noise.length = d → (out noise).length = d ∧
        toVec d (out noise) = weight cohort.length • (sumOf cfg d cohort + toVec d noise)) ∧
      ∀ noise accountant, release cohort noise accountant =
        charged cfg accountant >>= fun next => .ok (out noise, next)

theorem statistic_weighs (positive : 0 < cfg.clipNorm) {s : ℝ} (known : cfg.sensitivity = .ok s) :
    Weighs (fun cohort => dpSufficientStatistic Real.sqrt cohort cfg) cfg fun _ => 1 := by
  intro d cohort some_ dimension
  obtain ⟨summed, sums, size, vector⟩ := clippedSum_eq positive some_ dimension
  refine ⟨List.zipWith (· + ·) summed, fun noise length => ⟨by simp [size, length], ?_⟩, ?_⟩
  · rw [toVec_zipWith_add (size.trans length.symm), vector, one_smul, sumOf]
  · intro noise accountant
    dsimp only
    rw [dpSufficientStatistic, sums, ok_bind, DPConfig.sigma, known]
    rfl

theorem fedavg_weighs (positive : 0 < cfg.clipNorm) {s : ℝ} (known : cfg.sensitivity = .ok s) :
    Weighs (fun cohort => dpFedavg Real.sqrt cohort cfg) cfg fun n => (n : ℝ)⁻¹ := by
  intro d cohort some_ dimension
  obtain ⟨summed, sums, size, vector⟩ := clippedSum_eq positive some_ dimension
  refine ⟨fun noise => (List.zipWith (· + ·) summed noise).map (· / (cohort.length : ℝ)),
    fun noise length => ⟨by simp [size, length], ?_⟩, ?_⟩
  · have divided : (List.zipWith (· + ·) summed noise).map (· / (cohort.length : ℝ)) =
        (List.zipWith (· + ·) summed noise).map ((cohort.length : ℝ)⁻¹ * ·) := by
      simp only [div_eq_inv_mul]
    dsimp only
    rw [divided, toVec_map_mul, toVec_zipWith_add (size.trans length.symm), vector, sumOf]
  · intro noise accountant
    dsimp only
    rw [dpFedavg, sums, ok_bind, DPConfig.sigma, known]
    rfl

/-- A coupling of the releases is a shift of the weighted sums. -/
theorem couples_iff {release : Release} {weight : ℕ → ℝ} (weighs : Weighs release cfg weight)
    (neighbours : Neighbours cfg d cohort cohort') (v : List ℝ) :
    Couples release d cohort cohort' v ↔ v.length = d ∧
      ∀ x, weight cohort.length • (sumOf cfg d cohort + x) =
        weight cohort'.length • (sumOf cfg d cohort' + (x + toVec d v)) := by
  obtain ⟨out, released, returns⟩ := weighs d cohort neighbours.some_ neighbours.dimension
  obtain ⟨out', released', returns'⟩ := weighs d cohort' neighbours.some' neighbours.dimension'
  constructor
  · rintro ⟨length, couples⟩
    refine ⟨length, fun x => ?_⟩
    obtain ⟨_, same⟩ := couples (ofVec x) (length_ofVec x)
    have equal := same none
    rw [returns, returns'] at equal
    have vectors := congrArg (toVec d) (congrArg Prod.fst (Except.ok.inj equal))
    rwa [(released _ (length_ofVec x)).2, (released' _ (by simp [length])).2,
      toVec_zipWith_add ((length_ofVec x).trans length.symm), toVec_ofVec] at vectors
  · rintro ⟨length, shifts⟩
    refine ⟨length, fun noise size => ⟨⟨_, returns noise none⟩, fun accountant => ?_⟩⟩
    obtain ⟨outLength, outVector⟩ := released noise size
    obtain ⟨outLength', outVector'⟩ :=
      released' (List.zipWith (· + ·) noise v) (by simp [size, length])
    have same : out noise = out' (List.zipWith (· + ·) noise v) := by
      apply toVec_injective outLength outLength'
      rw [outVector, outVector', toVec_zipWith_add (size.trans length.symm)]
      exact shifts (toVec d noise)
    rw [returns, returns', same]

/-! The one-shot release. -/

theorem couples_statistic_iff (positive : 0 < cfg.clipNorm) {s : ℝ}
    (known : cfg.sensitivity = .ok s) (neighbours : Neighbours cfg d cohort cohort')
    (v : List ℝ) :
    Couples (fun cohort => dpSufficientStatistic Real.sqrt cohort cfg) d cohort cohort' v ↔
      v.length = d ∧ toVec d v = sumOf cfg d cohort - sumOf cfg d cohort' := by
  rw [couples_iff (statistic_weighs positive known) neighbours, ← sum_shift_iff]
  simp only [one_smul]

/-- Neighbouring cohorts whose clipped sums are as far apart as the sensitivity. -/
theorem exists_farthest (positive : 0 < cfg.clipNorm)
    (relation : cfg.adjacency = Adjacency.replaceOne ∨ cfg.adjacency = Adjacency.addRemove)
    (some_ : 1 ≤ d) {s : ℝ} (known : cfg.sensitivity = .ok s) :
    ∃ cohort cohort', Neighbours cfg d cohort cohort' ∧
      ‖sumOf cfg d cohort - sumOf cfg d cohort'‖ = s := by
  obtain ⟨e, unit⟩ : ∃ e : EuclideanSpace ℝ (Fin d), ‖e‖ = 1 :=
    ⟨EuclideanSpace.single ⟨0, some_⟩ 1, by simp⟩
  have farthest : ∀ sign : ℝ, |sign| = 1 →
      clip cfg.clipNorm ((sign * cfg.clipNorm) • e) = (sign * cfg.clipNorm) • e := by
    intro sign one
    apply clip_of_le
    rw [norm_smul, unit, mul_one, Real.norm_eq_abs, abs_mul, one, one_mul, abs_of_pos positive]
  have up := farthest 1 abs_one
  have down := farthest (-1) (by simp)
  rcases sensitivity_cases relation with ⟨same, multiplier⟩ | ⟨same, multiplier⟩
  · refine ⟨[ofVec ((1 * cfg.clipNorm) • e)], [ofVec ((-1 * cfg.clipNorm) • e)],
      ⟨same ▸ .replace [] [] _ _, by simp, by simp, by simp, by simp⟩, ?_⟩
    have apart : (1 * cfg.clipNorm) • e - (-1 * cfg.clipNorm) • e = (2 * cfg.clipNorm) • e := by
      rw [← sub_smul]
      ring_nf
    rw [multiplier] at known
    simp only [sumOf, List.map_cons, List.map_nil, total, toVec_ofVec, List.sum_cons,
      List.sum_nil, add_zero, up, down, apart, norm_smul, unit, mul_one]
    rw [Real.norm_of_nonneg (by linarith)]
    exact Except.ok.inj known
  · refine ⟨[ofVec ((1 * cfg.clipNorm) • e), ofVec ((1 * cfg.clipNorm) • e)],
      [ofVec ((1 * cfg.clipNorm) • e)],
      ⟨same ▸ .remove [] [_] _, by simp, by simp, by simp, by simp⟩, ?_⟩
    rw [multiplier] at known
    simp only [sumOf, List.map_cons, List.map_nil, total, toVec_ofVec, List.sum_cons,
      List.sum_nil, add_zero, up, add_sub_cancel_right, norm_smul, unit, mul_one]
    rw [Real.norm_of_nonneg (by linarith)]
    exact Except.ok.inj known

/-- A shift no longer than the sensitivity couples neighbouring cohorts, and no smaller
    bound does for all of them. -/
theorem statistic_sensitivity (cfg : DPConfig ℝ) (positive : 0 < cfg.clipNorm)
    (relation : cfg.adjacency = Adjacency.replaceOne ∨ cfg.adjacency = Adjacency.addRemove) :
    ∃ s, cfg.sensitivity = .ok s ∧
      (∀ d cohort cohort', Neighbours cfg d cohort cohort' → ∃ v, norm Real.sqrt v ≤ s ∧
        Couples (fun cohort => dpSufficientStatistic Real.sqrt cohort cfg) d cohort cohort' v) ∧
      ∀ d, 1 ≤ d → ∀ bound < s, ∃ cohort cohort', Neighbours cfg d cohort cohort' ∧
        ¬ ∃ v, norm Real.sqrt v ≤ bound ∧
          Couples (fun cohort => dpSufficientStatistic Real.sqrt cohort cfg) d cohort cohort' v := by
  obtain ⟨s, known⟩ := sensitivity_isOk relation
  refine ⟨s, known, ?_, ?_⟩
  · intro d cohort cohort' neighbours
    refine ⟨ofVec (sumOf cfg d cohort - sumOf cfg d cohort'), ?_, ?_⟩
    · rw [norm_eq (length_ofVec _), toVec_ofVec]
      exact norm_sumOf_le positive neighbours.adjacent known
    · rw [couples_statistic_iff positive known neighbours]
      exact ⟨length_ofVec _, toVec_ofVec _⟩
  · intro d some_ bound smaller
    obtain ⟨cohort, cohort', neighbours, far⟩ := exists_farthest positive relation some_ known
    refine ⟨cohort, cohort', neighbours, ?_⟩
    rintro ⟨v, short, couples⟩
    obtain ⟨length, difference⟩ := (couples_statistic_iff positive known neighbours v).mp couples
    rw [norm_eq length, difference, far] at short
    exact absurd smaller (not_lt.mpr short)

theorem statistic_sensitivity_one :
    ∃ s, (DPConfig.mk 1 1 Adjacency.replaceOne : DPConfig ℝ).sensitivity = .ok s ∧
      ∃ v, norm Real.sqrt v ≤ s ∧ Couples
        (fun cohort => dpSufficientStatistic Real.sqrt cohort ⟨1, 1, Adjacency.replaceOne⟩) 1
        [[1], [2]] [[1], [3]] v := by
  obtain ⟨s, known, coupled, _⟩ :=
    statistic_sensitivity ⟨1, 1, Adjacency.replaceOne⟩ one_pos (Or.inl rfl)
  have neighbours : Neighbours ⟨1, 1, Adjacency.replaceOne⟩ 1 [[1], [2]] [[1], [3]] :=
    ⟨.replace [[1]] [] [2] [3], by simp, by simp, by simp, by simp⟩
  exact ⟨s, known, coupled 1 _ _ neighbours⟩

/-! The average. -/

theorem length_replaceOne
    (adjacent : Adjacent Adjacency.replaceOne cohort cohort') : cohort.length = cohort'.length := by
  generalize relation : Adjacency.replaceOne = adjacency at adjacent
  cases adjacent with
  | replace before after a b => simp
  | remove before after a => exact absurd relation (by decide)
  | add before after a => exact absurd relation (by decide)

theorem length_addRemove (adjacent : Adjacent Adjacency.addRemove cohort cohort') :
    cohort.length ≠ cohort'.length := by
  generalize relation : Adjacency.addRemove = adjacency at adjacent
  cases adjacent with
  | replace before after a b => exact absurd relation (by decide)
  | remove before after a => simp
  | add before after a => simp

/-- No shift makes up for a client that joined or left. -/
theorem fedavg_uncoupled (positive : 0 < cfg.clipNorm)
    (changed : cfg.adjacency = Adjacency.addRemove) (some_ : 1 ≤ d)
    (neighbours : Neighbours cfg d cohort cohort') (v : List ℝ) :
    ¬ Couples (fun cohort => dpFedavg Real.sqrt cohort cfg) d cohort cohort' v := by
  intro couples
  have inhabited : Nonempty (Fin d) := ⟨⟨0, some_⟩⟩
  obtain ⟨s, known⟩ := sensitivity_isOk (Or.inr changed)
  obtain ⟨_, shifts⟩ := (couples_iff (fedavg_weighs positive known) neighbours v).mp couples
  exact length_addRemove (changed ▸ neighbours.adjacent) (average_shift_count shifts)

/-- A shift couples the averages of neighbouring cohorts exactly if they are equally many,
    or the updates have no coordinates. -/
theorem fedavg_coupled_iff (cfg : DPConfig ℝ) (positive : 0 < cfg.clipNorm)
    (relation : cfg.adjacency = Adjacency.replaceOne ∨ cfg.adjacency = Adjacency.addRemove)
    (d : ℕ) (cohort cohort' : List (List ℝ)) (neighbours : Neighbours cfg d cohort cohort') :
    (∃ v s, cfg.sensitivity = .ok s ∧ norm Real.sqrt v ≤ s ∧
        Couples (fun cohort => dpFedavg Real.sqrt cohort cfg) d cohort cohort' v) ↔
      cfg.adjacency = Adjacency.replaceOne ∨ d = 0 := by
  constructor
  · rintro ⟨v, _, _, _, couples⟩
    rcases relation with replaced | changed
    · exact Or.inl replaced
    · right
      by_contra some_
      exact fedavg_uncoupled positive changed (Nat.pos_of_ne_zero some_) neighbours v couples
  · intro condition
    obtain ⟨s, known⟩ := sensitivity_isOk relation
    refine ⟨ofVec (sumOf cfg d cohort - sumOf cfg d cohort'), s, known, ?_, ?_⟩
    · rw [norm_eq (length_ofVec _), toVec_ofVec]
      exact norm_sumOf_le positive neighbours.adjacent known
    · rw [couples_iff (fedavg_weighs positive known) neighbours]
      refine ⟨length_ofVec _, fun x => ?_⟩
      rcases condition with replaced | none_
      · rw [length_replaceOne (replaced ▸ neighbours.adjacent), toVec_ofVec]
        congr 1
        abel
      · subst none_
        exact Subsingleton.elim _ _

/-- One client of two, and the other cohort without it. -/
def twoClients : List (List ℝ) := [[1], [(2 : ℕ)]]
def oneClient : List (List ℝ) := [[(2 : ℕ)]]

theorem clients_neighbours : Neighbours ⟨1, 1, Adjacency.addRemove⟩ 1 twoClients oneClient :=
  ⟨.remove [] oneClient [1], by simp [twoClients], by simp [oneClient], by simp [twoClients], by simp [oneClient]⟩

theorem fedavg_coupled_pair :
    ¬ ∃ v s, (DPConfig.mk 1 1 Adjacency.addRemove : DPConfig ℝ).sensitivity = .ok s ∧
      norm Real.sqrt v ≤ s ∧
      Couples (fun cohort => dpFedavg Real.sqrt cohort ⟨1, 1, Adjacency.addRemove⟩) 1
        twoClients oneClient v := by
  have coupled := fedavg_coupled_iff ⟨1, 1, Adjacency.addRemove⟩ one_pos (Or.inr rfl) 1
    twoClients oneClient clients_neighbours
  rw [coupled]
  rintro (replaced | none_)
  · exact absurd replaced (by decide)
  · exact absurd none_ (by decide)

/-- Under add-or-remove adjacency the average of two updates is coupled with the average
    of one by no shift. -/
theorem leaving_client_uncoupled :
    Neighbours ⟨1, 1, Adjacency.addRemove⟩ 1 twoClients oneClient ∧
      ¬ ∃ v s, (DPConfig.mk 1 1 Adjacency.addRemove : DPConfig ℝ).sensitivity = .ok s ∧
        norm Real.sqrt v ≤ s ∧
        Couples (fun cohort => dpFedavg Real.sqrt cohort ⟨1, 1, Adjacency.addRemove⟩) 1
          twoClients oneClient v := by
  refine ⟨clients_neighbours, ?_⟩
  rintro ⟨v, _, _, _, couples⟩
  exact fedavg_uncoupled one_pos rfl (Nat.le_refl 1) clients_neighbours v couples

end HorizonRic.DifferentialPrivacy
