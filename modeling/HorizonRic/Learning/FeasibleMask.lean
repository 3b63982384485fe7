import HorizonRic.Learning.ExecutedActions
import HorizonRic.Shield.RoundedChecks

/-!
The feasibility mask of a grid. The vectorised predicate compares an edge where the
Shield asks for a margin that is not negative; with the rounding of floats, infinities
and NaN included, both give the same mask.
-/
namespace HorizonRic.Learning.ShieldedSpectrumEnv

open Py

variable (env : ShieldedSpectrumEnv) (py : Interpreter) (r : Rounding)

/-- The environment's Shield, with the rounding of the checks that add. -/
def roundedShield : Shield where
  invariants :=
    [NumericSanity.invariant py, SpectralMask.roundedInvariant py r env.params.mask,
      MaxEirp.roundedInvariant py r ⟨env.maxEirpDbm⟩,
      NeuralRxEnvelope.invariant py (neuralRx (.fin 1)),
      ConstellationLegality.invariant py ⟨.fin (17 / 2), "classical_qam"⟩]
  maxPasses := 8

theorem roundedShield_exact : env.roundedShield py .exact = env.shield py := by
  rw [roundedShield, SpectralMask.roundedInvariant_exact, MaxEirp.roundedInvariant_exact]
  rfl

def roundedIsFeasible (action : SpectrumAction) : Except PyErr Bool :=
  (env.roundedShield py r).isFeasible (env.actionPayload action) none

/-- The rows of the vectorised predicate. -/
def rowOk (f : Number) : Bool :=
  let bw := env.bandwidthHz
  let bwOk := bw.isFinite && Number.lt (.fin 0) bw
  (f.isFinite && Number.lt (.fin 0) f && Number.le env.bandLoHz (r.sub f (r.divBy bw 2)) &&
    Number.le (r.add f (r.divBy bw 2)) env.bandHiHz) && bwOk

/-- Its columns: the EIRP after a round trip through the conducted power. -/
def colOk (e : Number) : Bool :=
  let eirpEff := r.add (r.sub e antennaGainDbi) antennaGainDbi
  eirpEff.isFinite && Number.le eirpEff env.maxEirpDbm

def feasibleMaskGrid (freqs eirps : List Number) (fast : Bool) :
    Except PyErr (List (List Bool)) :=
  if fast then .ok (freqs.map fun f => eirps.map fun e => env.rowOk r f && env.colOk r e)
  else freqs.mapM fun f => eirps.mapM fun e =>
    env.roundedIsFeasible py r ⟨f, r.sub e antennaGainDbi⟩

variable {env py r} {action : SpectrumAction}

theorem roundedShield_checkable : ∀ inv ∈ (env.roundedShield py r).invariants, inv.Checkable := by
  intro inv member
  have plain : inv ∈ (env.shield py).invariants → inv.Checkable :=
    fun listed => (shield_safe env py inv listed).checkable
  rw [shield_invariants] at plain
  simp only [roundedShield, List.mem_cons, List.not_mem_nil, or_false] at member plain
  rcases member with sanity | rfl | rfl | envelope | legality
  · exact plain (Or.inl sanity)
  · exact SpectralMask.roundedInvariant_checkable py r _
  · exact MaxEirp.roundedInvariant_checkable py r _
  · exact plain (Or.inr (Or.inr (Or.inr (Or.inl envelope))))
  · exact plain (Or.inr (Or.inr (Or.inr (Or.inr legality))))

/-- Band edges that are finite floats. -/
structure FloatEdges (r : Rounding) (env : ShieldedSpectrumEnv) (lo hi : ℚ) : Prop where
  low : env.bandLoHz = .fin lo
  high : env.bandHiHz = .fin hi
  lowFloat : r.Represents env.bandLoHz
  highFloat : r.Represents env.bandHiHz

variable {lo hi : ℚ}

theorem FloatEdges.usableLo (edges : FloatEdges r env lo hi) :
    r.add env.params.mask.bandLoHz env.params.mask.guardBandHz = .fin lo :=
  (Rounding.add_fin_zero edges.lowFloat).trans edges.low

theorem FloatEdges.usableHi (edges : FloatEdges r env lo hi) :
    r.sub env.params.mask.bandHiHz env.params.mask.guardBandHz = .fin hi :=
  (Rounding.sub_fin_zero edges.highFloat).trans edges.high

/-! One cell. -/

theorem positive_iff (x : Number) :
    (x.isFinite && Number.lt (.fin 0) x) = true ↔ ∃ q, x = .fin q ∧ 0 < q := by
  cases x with
  | fin q => simp [Number.isFinite]
  | nan | inf _ => simp [Number.isFinite]

theorem rowOk_iff (f : Number) :
    env.rowOk r f = true ↔ ((∃ q, f = .fin q ∧ 0 < q) ∧ ∃ bw, env.bandwidthHz = .fin bw ∧ 0 < bw) ∧
      Number.le env.bandLoHz (r.sub f (r.divBy env.bandwidthHz 2)) = true ∧
      Number.le (r.add f (r.divBy env.bandwidthHz 2)) env.bandHiHz = true := by
  rw [rowOk, ← positive_iff, ← positive_iff]
  simp only [Bool.and_eq_true]
  tauto

/-- Nothing below the least float comes of adding the gain to a finite power. -/
theorem add_gain_cases (tx : ℚ) (float : r.ofSum tx = .fin tx) :
    (∃ q, r.add (.fin tx) antennaGainDbi = .fin q) ∨
      r.add (.fin tx) antennaGainDbi = .inf false := by
  have above := r.sum_mono tx (tx + 6) (by linarith)
  rw [float] at above
  change (∃ q, r.ofSum (tx + 6) = .fin q) ∨ r.ofSum (tx + 6) = .inf false
  cases sum : r.ofSum (tx + 6) with
  | nan => exact absurd sum (Rounding.ofSum_ne_nan _)
  | inf negative =>
    rw [sum] at above
    cases negative with
    | true => cases above
    | false => exact Or.inr rfl
  | fin q => exact Or.inl ⟨q, rfl⟩

/-- The round trip of the EIRP is finite exactly when the margin can be computed. -/
theorem margin_iff (tx : ℚ) (float : r.ofSum tx = .fin tx) (cap : Number) :
    Number.le (.fin 0) (r.sub cap (r.add (.fin tx) antennaGainDbi)) = true ↔
      ((r.add (.fin tx) antennaGainDbi).isFinite &&
        Number.le (r.add (.fin tx) antennaGainDbi) cap) = true := by
  rcases add_gain_cases tx float with ⟨q, finite⟩ | overflow
  · rw [finite, Rounding.zero_le_sub_fin]
    rfl
  · rw [overflow]
    cases cap with
    | inf negative => cases negative <;> exact Iff.rfl
    | nan | fin _ => exact Iff.rfl

theorem sub_gain_float {e : Number} {tx : ℚ} (power : r.sub e antennaGainDbi = .fin tx) :
    r.ofSum tx = .fin tx := by
  cases e with
  | fin q => exact r.sum_float _ _ power
  | nan | inf _ => cases power

theorem colOk_iff (e : Number) :
    env.colOk r e = true ↔ (∃ tx, r.sub e antennaGainDbi = .fin tx) ∧
      Number.le (.fin 0)
        (r.sub env.maxEirpDbm (r.add (r.sub e antennaGainDbi) antennaGainDbi)) = true := by
  rw [colOk]
  cases power : r.sub e antennaGainDbi with
  | fin tx =>
    rw [margin_iff tx (sub_gain_float power)]
    simp
  | inf negative =>
    have stays : r.add (.inf negative) antennaGainDbi = .inf negative := rfl
    simp [stays, Number.isFinite]
  | nan =>
    have stays : r.add .nan antennaGainDbi = .nan := rfl
    simp [stays, Number.isFinite]

theorem edges_iff (edges : FloatEdges r env lo hi) (q : ℚ) {bw : ℚ}
    (bandwidth : env.bandwidthHz = .fin bw) :
    Number.le (.fin 0) (SpectralMask.roundedMargin r env.params.mask
        (r.sub (.fin q) (r.divBy env.bandwidthHz 2)) (r.add (.fin q) (r.divBy env.bandwidthHz 2))) =
        true ↔
      Number.le env.bandLoHz (r.sub (.fin q) (r.divBy env.bandwidthHz 2)) = true ∧
        Number.le (r.add (.fin q) (r.divBy env.bandwidthHz 2)) env.bandHiHz = true := by
  have half : r.divBy env.bandwidthHz 2 ≠ .nan := by
    rw [bandwidth]
    exact Rounding.ofQuotient_ne_nan _
  rw [SpectralMask.roundedMargin_iff edges.usableLo edges.usableHi (Rounding.fin_add_ne_nan q half),
    edges.low, edges.high]

theorem roundedIsFeasible_eq (edges : FloatEdges r env lo hi) (f e : Number) :
    env.roundedIsFeasible py r ⟨f, r.sub e antennaGainDbi⟩ =
      .ok (env.rowOk r f && env.colOk r e) := by
  obtain ⟨feasible, answers, holds⟩ := feasibleAll_isOk roundedShield_checkable
    (env.actionPayload ⟨f, r.sub e antennaGainDbi⟩) (contextOf none)
  rw [roundedIsFeasible, Shield.isFeasible, answers]
  refine congrArg Except.ok (Bool.eq_iff_iff.mpr (holds.trans ?_))
  have classical : Holds (env.actionPayload ⟨f, r.sub e antennaGainDbi⟩) (contextOf none)
        (NeuralRxEnvelope.invariant py (neuralRx (.fin 1))) ∧
      Holds (env.actionPayload ⟨f, r.sub e antennaGainDbi⟩) (contextOf none)
        (ConstellationLegality.invariant py ⟨.fin (17 / 2), "classical_qam"⟩) :=
    payload_classical env _ _
  rw [Bool.and_eq_true, rowOk_iff, colOk_iff]
  simp only [roundedShield, List.mem_cons, List.not_mem_nil, or_false, forall_eq_or_imp, forall_eq,
    NumericSanity.holds_iff, domain_payload_iff, classical.1, classical.2, and_true,
    SpectralMask.rounded_holds_iff (payload_frequency zero) (payload_bandwidth zero),
    MaxEirp.rounded_holds_iff (payload_power zero) (payload_gain zero)]
  constructor
  · rintro ⟨⟨frequency, bandwidth, power⟩, inside, capped⟩
    obtain ⟨q, rfl, positive⟩ := frequency
    obtain ⟨bw, width, wide⟩ := bandwidth
    exact ⟨⟨⟨⟨q, rfl, positive⟩, bw, width, wide⟩, (edges_iff edges q width).mp inside⟩, power, capped⟩
  · rintro ⟨⟨⟨frequency, bandwidth⟩, inside⟩, power, capped⟩
    obtain ⟨q, rfl, positive⟩ := frequency
    obtain ⟨bw, width, wide⟩ := bandwidth
    exact ⟨⟨⟨q, rfl, positive⟩, ⟨bw, width, wide⟩, power⟩, (edges_iff edges q width).mpr inside,
      capped⟩

/-- The vectorised mask is the Shield's, on grids of any floats. -/
theorem feasibleMaskGrid_fast (env : ShieldedSpectrumEnv) (py : Interpreter) (r : Rounding)
    {lo hi : ℚ} (edges : FloatEdges r env lo hi) (freqs eirps : List Number) :
    env.feasibleMaskGrid py r freqs eirps true = env.feasibleMaskGrid py r freqs eirps false := by
  have row : ∀ f ∈ freqs, (eirps.mapM fun e =>
      env.roundedIsFeasible py r ⟨f, r.sub e antennaGainDbi⟩) =
        .ok (eirps.map fun e => env.rowOk r f && env.colOk r e) :=
    fun f _ => mapM_eq_map fun e _ => roundedIsFeasible_eq edges f e
  simp only [feasibleMaskGrid, if_true, Bool.false_eq_true, if_false]
  exact (mapM_eq_map row).symm

/-- The default band, where nothing has to be rounded. -/
theorem feasibleMaskGrid_fast_default :
    oneReceiver.feasibleMaskGrid Evidence.sampleInterpreter .exact
        [.fin 3500000000, .fin 3450000000, .nan] [.fin 33, .inf false] false =
      .ok [[true, false], [false, false], [false, false]] := by
  have edges : FloatEdges .exact oneReceiver 3450000000 3550000000 :=
    ⟨rfl, rfl, fun _ _ => rfl, fun _ _ => rfl⟩
  rw [← feasibleMaskGrid_fast oneReceiver Evidence.sampleInterpreter .exact edges]
  norm_num [feasibleMaskGrid, rowOk, colOk, Rounding.exact, Rounding.add, Rounding.sub,
    Rounding.divBy, antennaGainDbi, oneReceiver, Number.isFinite]
  decide

end HorizonRic.Learning.ShieldedSpectrumEnv
