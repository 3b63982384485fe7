import HorizonRic.Shield.Completeness

/-!
Completeness and minimal change of the default shields without a lawful-intercept
gate: a proposal is certified with the nearest legal centre and the least of the
requested power and the limits on it.
-/
namespace HorizonRic
open Py

/-- The power limits of a chain at an action. -/
def powerLimits (py : Interpreter) (action : Action) :
    List InvariantClass → Except PyErr (List Number)
  | [] => .ok []
  | .maxEirp cap :: rest => do
    let gain ← floatField py action "antenna_gain_dBi" zero
    let more ← powerLimits py action rest
    .ok ((cap.maxEirpDBm - gain) :: more)
  | .pfdCeiling cap :: rest =>
    if PfdCeiling.applies action then do
      let pfd ← PfdCeiling.computePfd py (action.set "tx_power_dBm" (.float (.fin 0)))
      let more ← powerLimits py action rest
      .ok ((cap.maxPfd - pfd) :: more)
    else powerLimits py action rest
  | _ :: rest => powerLimits py action rest

/-- Certified with the nearest legal centre and the least of the requested power and the
    limits, and with no other change than in the settled keys. -/
structure MinimalChange (py : Interpreter) (chain : List InvariantClass) (mask : SpectralMask)
    (action : Action) (d : ShieldDisposition) : Prop where
  safe : d.certificate.safe = true
  kept : Dict.SameOutside settledKeys action d.safeAction
  frequency : ∃ f bw c : ℚ, floatField py action "frequency_hz" zero = .ok (.fin f) ∧
    floatField py action "bandwidth_hz" zero = .ok (.fin bw) ∧
    floatField py d.safeAction "frequency_hz" zero = .ok (.fin c) ∧ mask.Nearest bw f c
  power : ∃ (tx t : ℚ) (limits : List Number),
    floatField py action "tx_power_dBm" zero = .ok (.fin tx) ∧
    floatField py d.safeAction "tx_power_dBm" zero = .ok (.fin t) ∧
    powerLimits py d.safeAction chain = .ok limits ∧
    .fin t = limits.foldl Number.min (.fin tx)

theorem foldl_min_eq {limits : List Number} {t tx : ℚ} (below : t ≤ tx)
    (within : ∀ limit ∈ limits, Number.le (.fin t) limit = true)
    (reached : t = tx ∨ .fin t ∈ limits) : limits.foldl Number.min (.fin tx) = .fin t := by
  induction limits generalizing tx with
  | nil =>
    rcases reached with rfl | impossible
    · rfl
    · cases impossible
  | cons limit rest ih =>
    have first := within limit List.mem_cons_self
    have later := fun other member => within other (List.mem_cons_of_mem limit member)
    rw [List.foldl_cons]
    cases limit with
    | nan => cases first
    | inf negative =>
      cases negative with
      | true => cases first
      | false =>
        refine ih below later ?_
        rcases reached with same | member
        · exact Or.inl same
        · rcases List.mem_cons.mp member with impossible | member
          · cases impossible
          · exact Or.inr member
    | fin q =>
      rw [Number.le_fin, decide_eq_true_eq] at first
      rw [Number.min_fin]
      refine ih (le_min below first) later ?_
      rcases reached with rfl | member
      · exact Or.inl (min_eq_left first).symm
      · rcases List.mem_cons.mp member with same | member
        · cases same
          exact Or.inl (min_eq_right below).symm
        · exact Or.inr member

/-- A ceiling that some finite power meets. -/
def Attainable (ceiling : Number) : Prop := ceiling ≠ .nan ∧ ceiling ≠ .inf true

theorem attainable_of_le {q : ℚ} {ceiling : Number} (le : Number.le (.fin q) ceiling = true) :
    Attainable ceiling := by
  constructor
  · rintro rfl
    cases le
  · rintro rfl
    cases le

theorem le_sub_iff (t offset : ℚ) (ceiling : Number) :
    Number.le (.fin t) (ceiling - .fin offset) = Number.le (.fin (t + offset)) ceiling := by
  cases ceiling with
  | nan => rfl
  | inf negative => cases negative <;> rfl
  | fin bound =>
    rw [Number.fin_sub, Number.le_fin, Number.le_fin, decide_eq_decide]
    exact le_sub_iff_add_le

section
variable {py : Interpreter} {mask : SpectralMask} {start action : Action} {f bw tx gain c : ℚ}
  {ctx : Context}

/-- A proposal of numbers that the numeric checks accept, not blocked, on a carrier that
    fits a usable band of positive width at non-negative frequencies. -/
structure Acceptable (py : Interpreter) (mask : SpectralMask) (action : Action) : Prop where
  numbers : ∀ key ∈ numberKeys, ∀ v, Dict.get? key action = some v → IsNumber v
  accepted : NumericSanity.problems py action = []
  unblocked : Dict.get? emitBlockedKey action = none
  nonneg : Number.le (.fin 0) mask.usableLo = true
  positive : Number.lt mask.usableLo mask.usableHi = true
  fits : ∃ bw, floatField py action "bandwidth_hz" zero = .ok bw ∧
    Number.le bw (mask.usableHi - mask.usableLo) = true

theorem Acceptable.proposed (acceptable : Acceptable py mask action)
    (printable : (action.getD "block" .null).digitsOk = true) :
    ∃ f bw tx gain, Proposed py mask action f bw tx gain := by
  have domain := (NumericSanity.problems_iff py).mp acceptable.accepted
  obtain ⟨f, frequency, _⟩ := NumericSanity.Domain.number
    (domain.required "frequency_hz" (by decide))
  obtain ⟨bw, bandwidth, _⟩ := NumericSanity.Domain.number
    (domain.required "bandwidth_hz" (by decide))
  obtain ⟨tx, power, _⟩ := NumericSanity.Domain.number
    (domain.required "tx_power_dBm" (by decide))
  obtain ⟨gain, antenna, _⟩ := domain.optionalNumber "antenna_gain_dBi" (by decide)
    (show zero.toFloat py = .ok (.fin 0) from rfl) (by decide)
  have fits : Number.le (.fin bw) (mask.usableHi - mask.usableLo) = true := by
    obtain ⟨width, read, fits⟩ := acceptable.fits
    rw [bandwidth] at read
    cases read
    exact fits
  exact ⟨f, bw, tx, gain, domain, acceptable.numbers "constellation_order" (by decide), printable,
    acceptable.unblocked, frequency, bandwidth, power, antenna,
    ⟨acceptable.nonneg, acceptable.positive, fits⟩⟩

/-- The block is not among the numbers. -/
theorem Acceptable.setBlock (acceptable : Acceptable py mask action) (v : Value) :
    Acceptable py mask (action.set "block" v) where
  numbers key member w present := by
    rw [Dict.get?_set_ne _ _ (by rintro rfl; revert member; decide)] at present
    exact acceptable.numbers key member w present
  accepted := by
    have domain := (NumericSanity.problems_iff py).mp acceptable.accepted
    rw [NumericSanity.problems_iff]
    exact domain.set py (by decide) fun number => absurd number (by decide)
  unblocked := by
    rw [Dict.get?_set_ne _ _ (by decide)]
    exact acceptable.unblocked
  nonneg := acceptable.nonneg
  positive := acceptable.positive
  fits := by
    obtain ⟨bw, read, fits⟩ := acceptable.fits
    exact ⟨bw, by rw [floatField_set_ne (by decide)]; exact read, fits⟩

/-- A settled action in the mask and within the limits changes no more than it must. -/
theorem minimalChange_of_swept {chain : List InvariantClass} {limits : List Number}
    {d : ShieldDisposition} (proposed : Proposed py mask action f bw tx gain)
    (nearest : mask.Nearest bw f c) (swept : Swept py limits action f tx c d.safeAction)
    (safe : d.certificate.safe = true)
    (inMask : Holds d.safeAction ctx (SpectralMask.invariant py mask))
    (computed : powerLimits py d.safeAction chain = .ok limits)
    (within : ∀ t, floatField py d.safeAction "tx_power_dBm" zero = .ok (.fin t) →
      ∀ limit ∈ limits, Number.le (.fin t) limit = true) :
    MinimalChange py chain mask action d := by
  obtain ⟨g, centre, requested⟩ := swept.frequency
  obtain ⟨t, power, below, reached⟩ := swept.power
  refine ⟨safe, swept.kept, ?_, ?_⟩
  · have bandwidth : floatField py d.safeAction "bandwidth_hz" zero = .ok (.fin bw) := by
      rw [swept.read (by decide)]
      exact proposed.bandwidth
    refine ⟨f, bw, g, proposed.frequency, proposed.bandwidth, centre, ?_⟩
    rcases requested with rfl | rfl
    · -- a legal centre is left where it is
      apply SpectralMask.nearest_self
      exact (SpectralMask.holds_iff py proposed.known centre bandwidth).mp inMask
    · exact nearest
  · exact ⟨tx, t, limits, proposed.power, power, computed,
      (foldl_min_eq below (within t power) reached).symm⟩

end

/-! The classes of the default chains, in the order of the chains. -/

namespace InvariantClass

/-- A ceiling that caps the power can be met. -/
def Reachable (start : Action) : InvariantClass → Prop
  | .maxEirp cap => Attainable cap.maxEirpDBm
  | .pfdCeiling cap => PfdCeiling.applies start = true → Attainable cap.maxPfd
  | _ => True

/-- A radio class of this mask, or an envelope that falls back to a classical block. -/
def Classical (mask : SpectralMask) : InvariantClass → Prop
  | .numericSanity | .maxEirp _ | .pfdCeiling _ => True
  | .spectralMask m => m = mask
  | .neuralRxEnvelope env => startsWith env.fallbackBlock "neural_rx" = false
  | .constellationLegality legal =>
    Number.le (.fin 0) legal.maxPaprDB = true ∧ startsWith legal.fallbackBlock "neural_rx" = false
  | .protectedSliceFloor _ | .lawfulIntercept _ => False

/-- The place of a class in a chain. -/
def rank : InvariantClass → Nat
  | .numericSanity => 0
  | .spectralMask _ => 1
  | .maxEirp _ => 2
  | .pfdCeiling _ => 3
  | .neuralRxEnvelope _ => 4
  | .constellationLegality _ => 5
  | .protectedSliceFloor _ | .lawfulIntercept _ => 6

/-- The limit that a class puts on the power. -/
def limitOf (applies : Bool) (gain density : ℚ) : InvariantClass → Option Number
  | .maxEirp cap => some (cap.maxEirpDBm - .fin gain)
  | .pfdCeiling cap => if applies then some (cap.maxPfd - .fin density) else none
  | _ => none

end InvariantClass

section
variable {py : Interpreter} {mask : SpectralMask} {start action : Action}
  {f bw tx gain c satGain slant density : ℚ} {limits : List Number} {ctx : Context}

theorem powerLimits_eq
    (antenna : floatField py action "antenna_gain_dBi" zero = .ok (.fin gain))
    (computed : PfdCeiling.applies action = true →
      PfdCeiling.computePfd py (action.set "tx_power_dBm" (.float (.fin 0))) = .ok (.fin density))
    (chain : List InvariantClass) : powerLimits py action chain =
      .ok (chain.filterMap (InvariantClass.limitOf (PfdCeiling.applies action) gain density)) := by
  induction chain with
  | nil => rfl
  | cons k rest ih =>
    cases k with
    | maxEirp cap =>
      simp only [powerLimits, antenna, ok_bind, ih, List.filterMap_cons, InvariantClass.limitOf]
    | pfdCeiling cap =>
      cases applied : PfdCeiling.applies action with
      | false =>
        rw [applied] at ih
        simp only [powerLimits, applied, Bool.false_eq_true, if_false, ih, List.filterMap_cons,
          InvariantClass.limitOf]
      | true =>
        rw [applied] at ih
        simp only [powerLimits, applied, if_true, computed applied, ok_bind, ih,
          List.filterMap_cons, InvariantClass.limitOf]
    | numericSanity => exact ih
    | spectralMask mask => exact ih
    | protectedSliceFloor slice => exact ih
    | neuralRxEnvelope env => exact ih
    | constellationLegality legal => exact ih
    | lawfulIntercept li => exact ih

theorem Proposed.downlink (proposed : Proposed py mask start f bw tx gain) :
    ∃ satGain slant, PfdCeiling.applies start = true → Downlink py start satGain slant bw := by
  obtain ⟨satGain, antenna, _⟩ := proposed.domain.optionalNumber "sat_antenna_gain_dBi" (by decide)
    (show zero.toFloat py = .ok (.fin 0) from rfl) (by decide)
  by_cases applied : PfdCeiling.applies start = true
  · obtain ⟨slant, range, _⟩ := NumericSanity.Domain.number (proposed.domain.slant applied)
    obtain ⟨width, bandwidth, _⟩ :=
      NumericSanity.Domain.number (proposed.domain.required "bandwidth_hz" (by decide))
    have same : width = bw := by
      obtain ⟨_, read, _⟩ := (NumericSanity.numberSatisfies_iff py _ _).mp
        (proposed.domain.required "bandwidth_hz" (by decide))
      have first := NumericSanity.floatField_of_required py read (.float (.fin (10 ^ 6)))
      have second := (NumericSanity.floatField_of_required py read zero).symm.trans proposed.bandwidth
      rw [bandwidth] at first
      cases first
      cases second
      rfl
    exact ⟨satGain, slant, fun _ => ⟨applied, antenna, range, same ▸ bandwidth⟩⟩
  · exact ⟨satGain, 0, fun impossible => absurd impossible applied⟩

/-- Every class of a chain settles the actions between the proposal and its settled form. -/
theorem InvariantClass.settles {k : InvariantClass}
    (downlink : PfdCeiling.applies start = true → Downlink py start satGain slant bw)
    (proposed : Proposed py mask start f bw tx gain) (clipped : mask.clip bw f = .fin c)
    (nearest : mask.Nearest bw f c) (measured : HorizonRic.Measured py ctx)
    (classical : k.Classical mask) (reachable : k.Reachable start)
    (member : ∀ limit, k.limitOf (PfdCeiling.applies start) gain
      (PfdCeiling.densityAtZero py satGain slant bw) = some limit → limit ∈ limits) :
    (k.invariant py).Settles (Swept py limits start f tx c) ctx := by
  cases k with
  | numericSanity => exact domain_settles
  | spectralMask m =>
    cases classical
    exact mask_settles proposed clipped nearest
  | maxEirp cap => exact eirp_settles proposed reachable (member _ rfl)
  | pfdCeiling cap =>
    cases applied : PfdCeiling.applies start with
    | false => exact pfd_settles_terrestrial applied cap
    | true =>
      apply pfd_settles (downlink applied) (reachable applied)
      apply member
      simp only [limitOf, applied, if_true]
  | neuralRxEnvelope env => exact NeuralRxEnvelope.settles measured classical
  | constellationLegality legal => exact ConstellationLegality.settles classical.1
  | protectedSliceFloor slice => exact classical.elim
  | lawfulIntercept li => exact classical.elim

/-- A class spares the check of every class before it. -/
theorem InvariantClass.spares {k l : InvariantClass}
    (downlink : PfdCeiling.applies start = true → Downlink py start satGain slant bw)
    (proposed : Proposed py mask start f bw tx gain)
    (settles : (l.invariant py).Settles (Swept py limits start f tx c) ctx)
    (before : k.rank < l.rank) (kClassical : k.Classical mask) (lClassical : l.Classical mask)
    (reachable : l.Reachable start) :
    (l.invariant py).Spares (Swept py limits start f tx c) ctx (k.invariant py) := by
  have frame : ∀ {keys : List String}, (l.invariant py).Respects (Dict.SameOutside keys) →
      (∀ key ∈ k.reads, key ∉ keys) →
      (l.invariant py).Spares (Swept py limits start f tx c) ctx (k.invariant py) :=
    fun writes apart => spares_frame writes k apart
  cases k with
  | numericSanity => exact spares_domain settles
  | spectralMask m =>
    cases l with
    | maxEirp cap => exact frame (eirp_writes cap) (by simp [reads])
    | pfdCeiling cap => exact frame (pfd_writes cap) (by simp [reads])
    | neuralRxEnvelope env => exact frame (neural_writes env) (by simp [reads, fallbackKey])
    | constellationLegality legal =>
      exact frame (constellation_writes legal) (by simp [reads, fallbackKey])
    | numericSanity | spectralMask _ => simp [rank] at before
    | protectedSliceFloor _ | lawfulIntercept _ => exact lClassical.elim
  | maxEirp cap =>
    cases l with
    | pfdCeiling density => exact pfd_spares_eirp proposed downlink reachable
    | neuralRxEnvelope env => exact frame (neural_writes env) (by simp [reads, fallbackKey])
    | constellationLegality legal =>
      exact frame (constellation_writes legal) (by simp [reads, fallbackKey])
    | numericSanity | spectralMask _ | maxEirp _ => simp [rank] at before
    | protectedSliceFloor _ | lawfulIntercept _ => exact lClassical.elim
  | pfdCeiling cap =>
    cases l with
    | neuralRxEnvelope env => exact frame (neural_writes env) (by simp [reads, fallbackKey])
    | constellationLegality legal =>
      exact frame (constellation_writes legal) (by simp [reads, fallbackKey])
    | numericSanity | spectralMask _ | maxEirp _ | pfdCeiling _ => simp [rank] at before
    | protectedSliceFloor _ | lawfulIntercept _ => exact lClassical.elim
  | neuralRxEnvelope env =>
    cases l with
    | constellationLegality legal => exact constellation_spares_neural lClassical.2
    | numericSanity | spectralMask _ | maxEirp _ | pfdCeiling _ | neuralRxEnvelope _ =>
      simp [rank] at before
    | protectedSliceFloor _ | lawfulIntercept _ => exact lClassical.elim
  | constellationLegality legal =>
    cases l with
    | numericSanity | spectralMask _ | maxEirp _ | pfdCeiling _ | neuralRxEnvelope _
      | constellationLegality _ => simp [rank] at before
    | protectedSliceFloor _ | lawfulIntercept _ => exact lClassical.elim
  | protectedSliceFloor slice => exact kClassical.elim
  | lawfulIntercept li => exact kClassical.elim

/-- A settled action that satisfies a class has a power within its limit, which is no NaN
    and not minus infinity. -/
theorem InvariantClass.within {k : InvariantClass} {limit : Number} {t : ℚ}
    (downlink : PfdCeiling.applies start = true → Downlink py start satGain slant bw)
    (proposed : Proposed py mask start f bw tx gain)
    (kept : Dict.SameOutside settledKeys start action)
    (power : floatField py action "tx_power_dBm" zero = .ok (.fin t))
    (holds : Holds action ctx (k.invariant py))
    (limits : k.limitOf (PfdCeiling.applies start) gain
      (PfdCeiling.densityAtZero py satGain slant bw) = some limit) :
    Number.le (.fin t) limit = true := by
  cases k with
  | maxEirp cap =>
    cases limits
    have antenna : floatField py action "antenna_gain_dBi" zero = .ok (.fin gain) := by
      rw [floatField, kept.getD (by decide)]
      exact proposed.antenna
    rw [le_sub_iff]
    exact (MaxEirp.holds_iff py power antenna).mp holds
  | pfdCeiling cap =>
    cases applied : PfdCeiling.applies start with
    | false => simp [limitOf, applied] at limits
    | true =>
      simp only [limitOf, applied, if_true] at limits
      cases limits
      have link := downlink applied
      rw [le_sub_iff]
      exact (PfdCeiling.holds_iff py (link.applies kept) (link.computePfd kept power)).mp holds
  | numericSanity | spectralMask _ | protectedSliceFloor _ | neuralRxEnvelope _
    | constellationLegality _ | lawfulIntercept _ => cases limits

variable {shield : Shield} {chain : List InvariantClass} {context : Option Context}
  {args : DisposeArgs} {d : ShieldDisposition}

/-- A chain of the radio classes and the envelopes, each once and in order. -/
structure Layered (mask : SpectralMask) (chain : List InvariantClass) : Prop where
  classical : ∀ k ∈ chain, k.Classical mask
  ordered : chain.Pairwise fun k l => k.rank < l.rank
  masked : .spectralMask mask ∈ chain

theorem Layered.noFloor (layered : Layered mask chain) : ∀ k ∈ chain, k.isFloor = false := by
  intro k member
  have classical := layered.classical k member
  cases k with
  | protectedSliceFloor slice => exact classical.elim
  | _ => rfl

/-- One sweep of a layered chain settles the proposal. -/
theorem Layered.dispose_settled (layered : Layered mask chain)
    (own : shield.invariants = invariantsOf py chain) (passes : shield.maxPasses ≠ 0)
    (proposed : Proposed py mask start f bw tx gain) (measured : Measured py (contextOf context))
    (reachable : ∀ k ∈ chain, k.Reachable start) (args : DisposeArgs) :
    ∃ d, shield.dispose py start context args = .ok d ∧
      MinimalChange py chain mask start d := by
  obtain ⟨c, clipped, nearest⟩ := SpectralMask.clip_nearest proposed.usable f
  obtain ⟨satGain, slant, downlink⟩ := proposed.downlink
  let density := PfdCeiling.densityAtZero py satGain slant bw
  let limits := chain.filterMap (InvariantClass.limitOf (PfdCeiling.applies start) gain density)
  have settles : ∀ k ∈ chain,
      (k.invariant py).Settles (Swept py limits start f tx c) (contextOf context) :=
    fun k member => InvariantClass.settles downlink proposed clipped nearest measured
      (layered.classical k member) (reachable k member)
      fun limit some => List.mem_filterMap.mpr ⟨k, member, some⟩
  have spares : shield.invariants.Pairwise fun earlier later =>
      later.Spares (Swept py limits start f tx c) (contextOf context) earlier := by
    rw [own, invariantsOf, List.pairwise_map]
    apply layered.ordered.imp_of_mem
    intro k l kMember lMember before
    exact InvariantClass.spares downlink proposed (settles l lMember) before
      (layered.classical k kMember) (layered.classical l lMember) (reachable l lMember)
  have safe : shield.Safe := by
    intro inv member
    rw [own] at member
    exact invariantsOf_safe py layered.noFloor inv member
  obtain ⟨d, disposed, certified, swept, holds⟩ := Shield.dispose_settles safe passes
    (fun _ => Swept.free proposed)
    (by
      rw [own]
      intro inv member
      obtain ⟨k, among, rfl⟩ := List.mem_map.mp member
      exact settles k among)
    spares proposed.swept args proposed.printable
  have each : ∀ k ∈ chain, Holds d.safeAction (contextOf context) (k.invariant py) := by
    intro k member
    apply holds
    rw [own]
    exact List.mem_map_of_mem member
  have antenna : floatField py d.safeAction "antenna_gain_dBi" zero = .ok (.fin gain) := by
    rw [swept.read (by decide)]
    exact proposed.antenna
  have applied : PfdCeiling.applies d.safeAction = PfdCeiling.applies start := by
    rw [PfdCeiling.applies, swept.kept.getD (by decide)]
    rfl
  have computed : powerLimits py d.safeAction chain = .ok limits := by
    rw [powerLimits_eq antenna ?_ chain, applied]
    intro applies
    rw [(downlink (applied ▸ applies)).computePfd (swept.kept.set (by decide) _)
      (floatField_set_self _), zero_add]
  refine ⟨d, disposed, minimalChange_of_swept proposed nearest swept certified
    (each _ layered.masked) computed ?_⟩
  intro t power limit member
  obtain ⟨k, among, some⟩ := List.mem_filterMap.mp member
  exact InvariantClass.within downlink proposed swept.kept power (each k among) some

/-- A certified action meets every ceiling of its chain. -/
theorem Layered.reachable_of_certified (own : shield.invariants = invariantsOf py chain)
    (acceptable : Acceptable py mask start)
    (disposed : shield.dispose py start context args = .ok d)
    (minimal : MinimalChange py chain mask start d) : ∀ k ∈ chain, k.Reachable start := by
  obtain ⟨f, bw, tx, gain, proposed⟩ := acceptable.proposed (printable_of_dispose disposed)
  obtain ⟨satGain, slant, downlink⟩ := proposed.downlink
  obtain ⟨_, t, _, _, power, _⟩ := minimal.power
  have holds : ∀ k ∈ chain, Holds d.safeAction (contextOf context) (k.invariant py) := by
    rcases (Shield.dispose_verdict disposed).2 with ⟨_, _, holds⟩ | ⟨refused, _⟩
    · intro k member
      apply holds
      rw [own]
      exact List.mem_map_of_mem member
    · rw [minimal.safe] at refused
      cases refused
  intro k member
  have held := holds k member
  cases k with
  | maxEirp cap =>
    apply attainable_of_le (q := t + gain)
    rw [← le_sub_iff]
    exact InvariantClass.within downlink proposed minimal.kept power held rfl
  | pfdCeiling cap =>
    intro applied
    apply attainable_of_le (q := t + PfdCeiling.densityAtZero py satGain slant bw)
    rw [← le_sub_iff]
    apply InvariantClass.within downlink proposed minimal.kept power held
    simp only [InvariantClass.limitOf, applied, if_true]
  | numericSanity | spectralMask _ | protectedSliceFloor _ | neuralRxEnvelope _
    | constellationLegality _ | lawfulIntercept _ => trivial

theorem Layered.minimal_iff (layered : Layered mask chain)
    (own : shield.invariants = invariantsOf py chain) (passes : shield.maxPasses ≠ 0)
    (acceptable : Acceptable py mask start) (measured : Measured py (contextOf context))
    (args : DisposeArgs) :
    (∃ d, shield.dispose py start context args = .ok d ∧ MinimalChange py chain mask start d) ↔
      (start.getD "block" .null).digitsOk = true ∧ ∀ k ∈ chain, k.Reachable start := by
  constructor
  · rintro ⟨d, disposed, minimal⟩
    exact ⟨printable_of_dispose disposed,
      reachable_of_certified own acceptable disposed minimal⟩
  · rintro ⟨printable, reachable⟩
    obtain ⟨f, bw, tx, gain, proposed⟩ := acceptable.proposed printable
    exact layered.dispose_settled own passes proposed measured reachable args

theorem terrestrial_layered {p : TerrestrialParams} (intercept : p.liConstraint = none)
    (bound : Number.le (.fin 0) p.maxPaprDB = true) : Layered p.mask p.chain := by
  have fallbacks : startsWith "classical_lmmse" "neural_rx" = false ∧
      startsWith "classical_qam" "neural_rx" = false := by decide
  constructor
  · simp [TerrestrialParams.chain, intercept, InvariantClass.ofIntercept, InvariantClass.Classical,
      neuralRx, bound, fallbacks]
  · simp [TerrestrialParams.chain, intercept, InvariantClass.ofIntercept, InvariantClass.rank]
  · simp [TerrestrialParams.chain]

theorem ntn_layered {p : NtnParams} (intercept : p.liConstraint = none) :
    Layered p.mask p.chain := by
  have fallback : startsWith "classical_lmmse" "neural_rx" = false := by decide
  constructor
  · simp [NtnParams.chain, intercept, InvariantClass.ofIntercept, InvariantClass.Classical,
      neuralRx, fallback]
  · simp [NtnParams.chain, intercept, InvariantClass.ofIntercept, InvariantClass.rank]
  · simp [NtnParams.chain]

end

/-- Both default shields settle an acceptable proposal exactly if its block prints and the
    ceilings on its power can be met. -/
theorem dispose_minimal_iff (py : Interpreter) (action : Action) (context : Option Context)
    (args : DisposeArgs) (measured : Measured py (contextOf context)) :
    (∀ p : TerrestrialParams, p.liConstraint = none → Number.le (.fin 0) p.maxPaprDB = true →
      Acceptable py p.mask action →
      ((∃ d, (defaultTerrestrialShield py p).dispose py action context args = .ok d ∧
          MinimalChange py p.chain p.mask action d) ↔
        (action.getD "block" .null).digitsOk = true ∧ Attainable p.maxEirpDBm)) ∧
    (∀ p : NtnParams, p.liConstraint = none → Acceptable py p.mask action →
      ((∃ d, (defaultNtnShield py p).dispose py action context args = .ok d ∧
          MinimalChange py p.chain p.mask action d) ↔
        (action.getD "block" .null).digitsOk = true ∧ Attainable p.maxEirpDBm ∧
          (PfdCeiling.applies action = true → Attainable p.maxPfd))) := by
  constructor
  · intro p intercept bound acceptable
    rw [(terrestrial_layered intercept bound).minimal_iff (terrestrial_invariants py p)
      (show (8 : Nat) ≠ 0 by decide) acceptable measured]
    simp [TerrestrialParams.chain, intercept, InvariantClass.ofIntercept, InvariantClass.Reachable]
  · intro p intercept acceptable
    rw [(ntn_layered intercept).minimal_iff (ntn_invariants py p) (show (8 : Nat) ≠ 0 by decide)
      acceptable measured]
    simp [NtnParams.chain, intercept, InvariantClass.ofIntercept, InvariantClass.Reachable]

theorem carrier_numbers : ∀ key ∈ numberKeys, ∀ v, Dict.get? key carrierAction = some v →
    IsNumber v := by
  have below : 5000000000 < floatOverflow := lt_floatOverflow (by decide)
  have range : (5000000000 : ℚ) < floatOverflow := by exact_mod_cast below
  intro key _ v present
  simp only [carrierAction, Dict.get?] at present
  split at present
  · cases present
    change |(5000000000 : ℚ)| < floatOverflow
    rwa [abs_of_pos (by norm_num)]
  · split at present
    · cases present
      change |(20000000 : ℚ)| < floatOverflow
      rw [abs_of_pos (by norm_num)]
      linarith
    · split at present
      · cases present
        change |(20 : ℚ)| < floatOverflow
        rw [abs_of_pos (by norm_num)]
        linarith
      · cases present

theorem carrier_acceptable :
    Acceptable plainInterpreter (testbedParams (.fin 3600000000)).mask carrierAction := by
  refine ⟨carrier_numbers, ?_, ?_, ?_, ?_, .fin 20000000, ?_, ?_⟩
  · decide
  · decide
  · decide +kernel
  · decide +kernel
  · decide
  · decide +kernel

theorem dispose_minimal_carrier :
    Measured plainInterpreter (contextOf none) ∧
      (testbedParams (.fin 3600000000)).liConstraint = none ∧
      Number.le (.fin 0) (testbedParams (.fin 3600000000)).maxPaprDB = true ∧
      Acceptable plainInterpreter (testbedParams (.fin 3600000000)).mask carrierAction ∧
      ∃ d, (defaultTerrestrialShield plainInterpreter (testbedParams (.fin 3600000000))).dispose
          plainInterpreter carrierAction none plainArgs = .ok d ∧
        MinimalChange plainInterpreter (testbedParams (.fin 3600000000)).chain
          (testbedParams (.fin 3600000000)).mask carrierAction d := by
  have measured : Measured plainInterpreter (contextOf none) := Or.inl rfl
  have settles := (dispose_minimal_iff plainInterpreter carrierAction none plainArgs measured).1
    (testbedParams (.fin 3600000000)) rfl (by decide) carrier_acceptable
  exact ⟨measured, rfl, by decide, carrier_acceptable,
    settles.mpr ⟨by decide, by decide, by decide⟩⟩

/-- The same carrier on a block that does not print gets no disposition. -/
theorem unprintable_carrier_raises :
    Measured plainInterpreter (contextOf none) ∧
      (testbedParams (.fin 3600000000)).liConstraint = none ∧
      Number.le (.fin 0) (testbedParams (.fin 3600000000)).maxPaprDB = true ∧
      Attainable (testbedParams (.fin 3600000000)).maxEirpDBm ∧
      Acceptable plainInterpreter (testbedParams (.fin 3600000000)).mask
        (carrierAction.set "block" (.int intStrLimit)) ∧
      ¬ ∃ d, (defaultTerrestrialShield plainInterpreter (testbedParams (.fin 3600000000))).dispose
            plainInterpreter (carrierAction.set "block" (.int intStrLimit)) none plainArgs = .ok d ∧
          MinimalChange plainInterpreter (testbedParams (.fin 3600000000)).chain
            (testbedParams (.fin 3600000000)).mask
            (carrierAction.set "block" (.int intStrLimit)) d := by
  refine ⟨Or.inl rfl, rfl, by decide, ⟨by decide, by decide⟩,
    carrier_acceptable.setBlock _, ?_⟩
  rintro ⟨d, disposed, _⟩
  have printable := printable_of_dispose disposed
  have tooLong : intDigitsOk intStrLimit = false := by
    simp [intDigitsOk]
  rw [Dict.getD_set_self] at printable
  simp [Value.digitsOk, tooLong] at printable

end HorizonRic
