import HorizonRic.Shield.Soundness
import HorizonRic.Shield.ProtectedSlice

/-!
The invariant classes of the repository as one type. A chain is a list of them,
so a fact of every class is a fact of every chain. Checks only read numbers
through conversions: two actions whose numbers convert alike are graded alike.
-/
namespace HorizonRic
open Py

inductive InvariantClass where
  | numericSanity
  | spectralMask (mask : SpectralMask)
  | maxEirp (cap : MaxEirp)
  | protectedSliceFloor (slice : ProtectedSliceFloor)
  | pfdCeiling (cap : PfdCeiling)
  | neuralRxEnvelope (env : NeuralRxEnvelope)
  | constellationLegality (legal : ConstellationLegality)
  | lawfulIntercept (li : LIConstraint)

namespace InvariantClass

def invariant (py : Interpreter) : InvariantClass → Invariant
  | .numericSanity => NumericSanity.invariant py
  | .spectralMask mask => SpectralMask.invariant py mask
  | .maxEirp cap => MaxEirp.invariant py cap
  | .protectedSliceFloor slice => slice.invariant py
  | .pfdCeiling cap => PfdCeiling.invariant py cap
  | .neuralRxEnvelope env => NeuralRxEnvelope.invariant py env
  | .constellationLegality legal => ConstellationLegality.invariant py legal
  | .lawfulIntercept li => LawfulIntercept.invariant py li

def isFloor : InvariantClass → Bool
  | .protectedSliceFloor _ => true
  | _ => false

def ofIntercept : Option LIConstraint → List InvariantClass
  | some li => [.lawfulIntercept li]
  | none => []

end InvariantClass

def invariantsOf (py : Interpreter) (chain : List InvariantClass) : List Invariant :=
  chain.map (InvariantClass.invariant py)

def TerrestrialParams.chain (p : TerrestrialParams) : List InvariantClass :=
  [.numericSanity] ++ InvariantClass.ofIntercept p.liConstraint ++
    [.spectralMask p.mask, .maxEirp ⟨p.maxEirpDBm⟩,
      .neuralRxEnvelope (neuralRx p.neuralRxToleranceDB),
      .constellationLegality ⟨p.maxPaprDB, "classical_qam"⟩]

def NtnParams.chain (p : NtnParams) : List InvariantClass :=
  [.numericSanity] ++ InvariantClass.ofIntercept p.liConstraint ++
    [.spectralMask p.mask, .maxEirp ⟨p.maxEirpDBm⟩, .pfdCeiling ⟨p.maxPfd⟩,
      .neuralRxEnvelope (neuralRx p.neuralRxToleranceDB)]

theorem terrestrial_invariants (py : Interpreter) (p : TerrestrialParams) :
    (defaultTerrestrialShield py p).invariants = invariantsOf py p.chain := by
  unfold defaultTerrestrialShield TerrestrialParams.chain
  cases p.liConstraint <;> rfl

theorem ntn_invariants (py : Interpreter) (p : NtnParams) :
    (defaultNtnShield py p).invariants = invariantsOf py p.chain := by
  unfold defaultNtnShield NtnParams.chain
  cases p.liConstraint <;> rfl

theorem terrestrial_noFloor (p : TerrestrialParams) : ∀ k ∈ p.chain, k.isFloor = false := by
  unfold TerrestrialParams.chain
  cases p.liConstraint <;> simp [InvariantClass.ofIntercept, InvariantClass.isFloor]

theorem ntn_noFloor (p : NtnParams) : ∀ k ∈ p.chain, k.isFloor = false := by
  unfold NtnParams.chain
  cases p.liConstraint <;> simp [InvariantClass.ofIntercept, InvariantClass.isFloor]

/-- Numbers no conversion tells apart. -/
structure SameNumber (v w : Value) : Prop where
  float : ∀ py : Interpreter, v.toFloat py = w.toFloat py
  int : ∀ py : Interpreter, v.toInt py = w.toInt py
  truthy : v.truthy = w.truthy

/-- The keys under which the Shield writes numbers or flags. -/
def numericKeys : List String :=
  ["emit_blocked", "frequency_hz", "tx_power_dBm", "predicted_tbler", "constellation_order",
    "papr_dB"]

def Reads (key : String) (a b : Action) : Prop :=
  Dict.get? key a = Dict.get? key b ∨
    key ∈ numericKeys ∧ ∃ v w, Dict.get? key a = some v ∧ Dict.get? key b = some w ∧
      SameNumber v w

def AlikeExcept (keys : List String) (a b : Action) : Prop := ∀ key, key ∉ keys → Reads key a b

namespace Reads
variable {key : String} {a b : Action}

theorem getD (h : Reads key a b) (outside : key ∉ numericKeys) (default : Value) :
    a.getD key default = b.getD key default := by
  rcases h with same | ⟨inside, _⟩
  · rw [Dict.getD, Dict.getD, same]
  · exact absurd inside outside

theorem has (h : Reads key a b) : a.has key = b.has key := by
  rcases h with same | ⟨_, v, w, hv, hw, _⟩
  · rw [Dict.has, Dict.has, same]
  · rw [Dict.has, Dict.has, hv, hw]
    rfl

theorem toFloat (py : Interpreter) (h : Reads key a b) (default : Value) :
    (a.getD key default).toFloat py = (b.getD key default).toFloat py := by
  rcases h with same | ⟨_, v, w, hv, hw, number⟩
  · rw [Dict.getD, Dict.getD, same]
  · rw [Dict.getD, Dict.getD, hv, hw]
    exact number.float py

theorem floatField (py : Interpreter) (h : Reads key a b) (default : Value) :
    floatField py a key default = HorizonRic.floatField py b key default :=
  h.toFloat py default

theorem toInt (py : Interpreter) (h : Reads key a b) (default : Value) :
    (a.getD key default).toInt py = (b.getD key default).toInt py := by
  rcases h with same | ⟨_, v, w, hv, hw, number⟩
  · rw [Dict.getD, Dict.getD, same]
  · rw [Dict.getD, Dict.getD, hv, hw]
    exact number.int py

theorem truthy (h : Reads key a b) (default : Value) :
    (a.getD key default).truthy = (b.getD key default).truthy := by
  rcases h with same | ⟨_, v, w, hv, hw, number⟩
  · rw [Dict.getD, Dict.getD, same]
  · rw [Dict.getD, Dict.getD, hv, hw]
    exact number.truthy

end Reads

section
variable (py : Interpreter) {a b : Action}

theorem NumericSanity.numberSatisfies_congr {v w : Value} (same : v.toFloat py = w.toFloat py)
    (ok : ℚ → Bool) : numberSatisfies py v ok = numberSatisfies py w ok := by
  simp only [numberSatisfies, number, same]

theorem NumericSanity.required_congr {key : String} (h : Reads key a b) (ok : ℚ → Bool)
    (message : String) : required py a key ok message = required py b key ok message := by
  simp only [required, numberSatisfies_congr py (h.toFloat py .null)]

theorem NumericSanity.optional_congr {key : String} (h : Reads key a b) (ok : ℚ → Bool)
    (message : String) : optional py a key ok message = optional py b key ok message := by
  simp only [optional, required_congr py h, h.has]

/-- The predicted error rate may be read differently if the domain check cannot tell. -/
theorem NumericSanity.problems_congr (h : AlikeExcept ["predicted_tbler"] a b)
    (predicted : ∀ ok message, ok = (fun q : ℚ => decide (0 ≤ q) && decide (q ≤ 1)) →
      optional py a "predicted_tbler" ok message = optional py b "predicted_tbler" ok message) :
    problems py a = problems py b := by
  have truthy := (h "ntn" (by decide)).truthy (.bool false)
  have need : ∀ key, key ≠ "predicted_tbler" → ∀ ok message,
      required py a key ok message = required py b key ok message :=
    fun key other => required_congr py (h key (by simpa using other))
  have may : ∀ key, key ≠ "predicted_tbler" → ∀ ok message,
      optional py a key ok message = optional py b key ok message :=
    fun key other => optional_congr py (h key (by simpa using other))
  simp only [problems, truthy, List.flatMap_cons, List.flatMap_nil]
  rw [need _ (by decide), need _ (by decide), need _ (by decide), may _ (by decide),
    may _ (by decide), predicted _ _ rfl, may _ (by decide), may _ (by decide), may _ (by decide),
    may _ (by decide), need _ (by decide)]

theorem SpectralMask.edges_congr (h : AlikeExcept ["predicted_tbler"] a b) :
    edges py a = edges py b := by
  simp only [edges, (h "frequency_hz" (by decide)).floatField py,
    (h "bandwidth_hz" (by decide)).floatField py]

theorem MaxEirp.eirp_congr (h : AlikeExcept ["predicted_tbler"] a b) :
    eirp py a = eirp py b := by
  simp only [eirp, (h "tx_power_dBm" (by decide)).floatField py,
    (h "antenna_gain_dBi" (by decide)).floatField py]

theorem PfdCeiling.applies_congr (h : AlikeExcept ["predicted_tbler"] a b) :
    applies a = applies b :=
  (h "ntn" (by decide)).truthy _

theorem PfdCeiling.computePfd_congr (h : AlikeExcept ["predicted_tbler"] a b) :
    computePfd py a = computePfd py b := by
  simp only [computePfd, (h "tx_power_dBm" (by decide)).floatField py,
    (h "sat_antenna_gain_dBi" (by decide)).floatField py,
    (h "slant_range_m" (by decide)).floatField py,
    (h "bandwidth_hz" (by decide)).floatField py]

theorem ConstellationLegality.applies_congr (h : AlikeExcept ["predicted_tbler"] a b) :
    applies py a = applies py b := by
  simp only [applies, (h "constellation_order" (by decide)).has,
    (h "block" (by decide)).getD (by decide)]

theorem ConstellationLegality.order_congr (h : AlikeExcept ["predicted_tbler"] a b) :
    orderField py a = orderField py b :=
  (h "constellation_order" (by decide)).toInt py _

theorem LIConstraint.checkFeasibility_congr (li : LIConstraint)
    (h : AlikeExcept ["predicted_tbler"] a b) (ctx : Context) :
    li.checkFeasibility py a ctx = li.checkFeasibility py b ctx := by
  simp only [checkFeasibility, (h "affected_ue_ids" (by decide)).getD (by decide),
    (h "affected_slice_ids" (by decide)).getD (by decide),
    (h "target_jurisdiction" (by decide)).getD (by decide)]

theorem ProtectedSliceFloor.allocation_congr (h : AlikeExcept ["predicted_tbler"] a b) :
    allocation a = allocation b :=
  (h allocKey (by decide)).getD (by decide) _

/-- Every check but those of the domain and of the neural receiver ignores the
    predicted error rate. -/
theorem InvariantClass.evaluate_congr (k : InvariantClass)
    (h : AlikeExcept ["predicted_tbler"] a b) (ctx : Context)
    (notDomain : k ≠ .numericSanity) (notNeural : ∀ env, k ≠ .neuralRxEnvelope env) :
    (k.invariant py).evaluate a ctx = (k.invariant py).evaluate b ctx := by
  cases k with
  | numericSanity => exact absurd rfl notDomain
  | neuralRxEnvelope env => exact absurd rfl (notNeural env)
  | spectralMask mask =>
    simp only [invariant, SpectralMask.invariant, SpectralMask.evaluate,
      SpectralMask.edges_congr py h]
  | maxEirp cap =>
    simp only [invariant, MaxEirp.invariant, MaxEirp.evaluate, MaxEirp.eirp_congr py h]
  | protectedSliceFloor slice =>
    simp only [invariant, ProtectedSliceFloor.invariant, ProtectedSliceFloor.evaluate,
      ProtectedSliceFloor.share, ProtectedSliceFloor.allocation_congr h]
  | pfdCeiling cap =>
    simp only [invariant, PfdCeiling.invariant, PfdCeiling.evaluate, PfdCeiling.applies_congr h,
      PfdCeiling.computePfd_congr py h]
  | constellationLegality legal =>
    simp only [invariant, ConstellationLegality.invariant, ConstellationLegality.evaluate,
      ConstellationLegality.applies_congr py h, ConstellationLegality.order_congr py h,
      (h "papr_dB" (by decide)).floatField py]
  | lawfulIntercept li =>
    simp only [invariant, LawfulIntercept.invariant, LawfulIntercept.evaluate,
      li.checkFeasibility_congr py h]

theorem InvariantClass.checkable (k : InvariantClass) : (k.invariant py).Checkable := by
  cases k with
  | numericSanity => exact (NumericSanity.contained py).evaluateRaises
  | spectralMask mask => exact (SpectralMask.contained py mask).evaluateRaises
  | maxEirp cap => exact (MaxEirp.contained py cap).evaluateRaises
  | protectedSliceFloor slice => exact slice.checkable py
  | pfdCeiling cap => exact (PfdCeiling.contained py cap).evaluateRaises
  | neuralRxEnvelope env => exact (NeuralRxEnvelope.contained py env).evaluateRaises
  | constellationLegality legal => exact (ConstellationLegality.contained py legal).evaluateRaises
  | lawfulIntercept li => exact (LawfulIntercept.contained py li).evaluateRaises

theorem InvariantClass.safe (k : InvariantClass) (noFloor : k.isFloor = false) :
    (k.invariant py).Safe := by
  cases k with
  | numericSanity => exact ⟨_, List.subset_cons_self _ _, NumericSanity.contained py⟩
  | spectralMask mask => exact ⟨_, List.subset_cons_self _ _, SpectralMask.contained py mask⟩
  | maxEirp cap => exact ⟨_, List.subset_cons_self _ _, MaxEirp.contained py cap⟩
  | protectedSliceFloor slice => cases noFloor
  | pfdCeiling cap => exact ⟨_, List.subset_cons_self _ _, PfdCeiling.contained py cap⟩
  | neuralRxEnvelope env => exact ⟨_, List.subset_cons_self _ _, NeuralRxEnvelope.contained py env⟩
  | constellationLegality legal =>
    exact ⟨_, List.subset_cons_self _ _, ConstellationLegality.contained py legal⟩
  | lawfulIntercept li => exact ⟨_, by decide, LawfulIntercept.contained py li⟩

/-- The keys that a check reads. -/
def InvariantClass.reads : InvariantClass → List String
  | .numericSanity =>
    ["frequency_hz", "bandwidth_hz", "tx_power_dBm", "antenna_gain_dBi", "sat_antenna_gain_dBi",
      "predicted_tbler", "baseline_tbler", "demap_confidence", "papr_dB", "constellation_order",
      "ntn", "slant_range_m"]
  | .spectralMask _ => ["frequency_hz", "bandwidth_hz"]
  | .maxEirp _ => ["tx_power_dBm", "antenna_gain_dBi"]
  | .protectedSliceFloor _ => [ProtectedSliceFloor.allocKey]
  | .pfdCeiling _ =>
    ["ntn", "tx_power_dBm", "sat_antenna_gain_dBi", "slant_range_m", "bandwidth_hz"]
  | .neuralRxEnvelope _ => ["block", "baseline_tbler", "predicted_tbler", "demap_confidence"]
  | .constellationLegality _ => ["constellation_order", "block", "papr_dB"]
  | .lawfulIntercept _ => ["affected_ue_ids", "affected_slice_ids", "target_jurisdiction"]

theorem getD_of_get? {key : String} (same : Dict.get? key a = Dict.get? key b) (default : Value) :
    a.getD key default = b.getD key default := by
  rw [Dict.getD, Dict.getD, same]

theorem has_of_get? {key : String} (same : Dict.get? key a = Dict.get? key b) :
    a.has key = b.has key := by
  rw [Dict.has, Dict.has, same]

/-- A check sees nothing but its keys. -/
theorem InvariantClass.evaluate_reads (k : InvariantClass)
    (same : ∀ key ∈ k.reads, Dict.get? key a = Dict.get? key b) (ctx : Context) :
    (k.invariant py).evaluate a ctx = (k.invariant py).evaluate b ctx := by
  have read := fun key member default => getD_of_get? (same key member) default
  have has := fun key member => has_of_get? (same key member)
  cases k with
  | numericSanity =>
    simp only [invariant, NumericSanity.invariant, NumericSanity.evaluate, NumericSanity.problems,
      NumericSanity.required, NumericSanity.optional, List.flatMap_cons, List.flatMap_nil,
      read "frequency_hz" (by decide), read "bandwidth_hz" (by decide),
      read "tx_power_dBm" (by decide), read "antenna_gain_dBi" (by decide),
      read "sat_antenna_gain_dBi" (by decide), read "predicted_tbler" (by decide),
      read "baseline_tbler" (by decide), read "demap_confidence" (by decide),
      read "papr_dB" (by decide), read "constellation_order" (by decide), read "ntn" (by decide),
      read "slant_range_m" (by decide), has "antenna_gain_dBi" (by decide),
      has "sat_antenna_gain_dBi" (by decide), has "predicted_tbler" (by decide),
      has "baseline_tbler" (by decide), has "demap_confidence" (by decide),
      has "papr_dB" (by decide), has "constellation_order" (by decide)]
  | spectralMask mask =>
    have edges : SpectralMask.edges py a = SpectralMask.edges py b := by
      simp only [SpectralMask.edges, floatField, read "frequency_hz" (by simp [reads]),
        read "bandwidth_hz" (by simp [reads])]
    simp only [invariant, SpectralMask.invariant, SpectralMask.evaluate, edges]
  | maxEirp cap =>
    have eirp : MaxEirp.eirp py a = MaxEirp.eirp py b := by
      simp only [MaxEirp.eirp, floatField, read "tx_power_dBm" (by simp [reads]),
        read "antenna_gain_dBi" (by simp [reads])]
    simp only [invariant, MaxEirp.invariant, MaxEirp.evaluate, eirp]
  | protectedSliceFloor slice =>
    have allocation : ProtectedSliceFloor.allocation a = ProtectedSliceFloor.allocation b :=
      read _ (by simp [reads]) _
    simp only [invariant, ProtectedSliceFloor.invariant, ProtectedSliceFloor.evaluate,
      ProtectedSliceFloor.share, allocation]
  | pfdCeiling cap =>
    have applies : PfdCeiling.applies a = PfdCeiling.applies b := by
      simp only [PfdCeiling.applies, read "ntn" (by simp [reads])]
    have pfd : PfdCeiling.computePfd py a = PfdCeiling.computePfd py b := by
      simp only [PfdCeiling.computePfd, floatField, read "tx_power_dBm" (by simp [reads]),
        read "sat_antenna_gain_dBi" (by simp [reads]), read "slant_range_m" (by simp [reads]),
        read "bandwidth_hz" (by simp [reads])]
    simp only [invariant, PfdCeiling.invariant, PfdCeiling.evaluate, applies, pfd]
  | neuralRxEnvelope env =>
    simp only [invariant, NeuralRxEnvelope.invariant, NeuralRxEnvelope.evaluate,
      NeuralRxEnvelope.applies, NeuralRxEnvelope.grade, floatField, read "block" (by simp [reads]),
      read "baseline_tbler" (by simp [reads]), read "predicted_tbler" (by simp [reads]),
      read "demap_confidence" (by simp [reads])]
  | constellationLegality legal =>
    have applies : ConstellationLegality.applies py a = ConstellationLegality.applies py b := by
      simp only [ConstellationLegality.applies, has "constellation_order" (by simp [reads]),
        read "block" (by simp [reads])]
    simp only [invariant, ConstellationLegality.invariant, ConstellationLegality.evaluate, applies,
      ConstellationLegality.orderField, floatField, read "constellation_order" (by simp [reads]),
      read "papr_dB" (by simp [reads])]
  | lawfulIntercept li =>
    have checks : li.checkFeasibility py a ctx = li.checkFeasibility py b ctx := by
      simp only [LIConstraint.checkFeasibility, read "affected_ue_ids" (by simp [reads]),
        read "affected_slice_ids" (by simp [reads]), read "target_jurisdiction" (by simp [reads])]
    simp only [invariant, LawfulIntercept.invariant, LawfulIntercept.evaluate, checks]

/-- A check holds on through writes to keys that it does not read. -/
theorem InvariantClass.holds_frame (k : InvariantClass) {keys : List String} {ctx : Context}
    (holds : Holds a ctx (k.invariant py)) (writes : Dict.SameOutside keys a b)
    (apart : ∀ key ∈ k.reads, key ∉ keys) : Holds b ctx (k.invariant py) := by
  obtain ⟨c, evaluated, satisfied⟩ := holds
  refine ⟨c, ?_, satisfied⟩
  rw [← k.evaluate_reads py (fun key member => (writes key (apart key member)).symm)]
  exact evaluated

theorem invariantsOf_checkable (chain : List InvariantClass) :
    ∀ inv ∈ invariantsOf py chain, inv.Checkable := by
  intro inv member
  obtain ⟨k, _, rfl⟩ := List.mem_map.mp member
  exact k.checkable py

theorem invariantsOf_safe {chain : List InvariantClass}
    (noFloor : ∀ k ∈ chain, k.isFloor = false) : ∀ inv ∈ invariantsOf py chain, inv.Safe := by
  intro inv member
  obtain ⟨k, among, rfl⟩ := List.mem_map.mp member
  exact k.safe py (noFloor k among)

end
end HorizonRic
