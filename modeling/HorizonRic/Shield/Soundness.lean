import HorizonRic.Shield.Loop

/-!
Soundness of the default shields. A certified action satisfies every invariant
of its chain, and so meets the mask, the power ceilings and the constellation
bounds as numbers; an action that is not certified is blocked.
-/
namespace HorizonRic
open Py

section
variable (py : Interpreter)

/-- The carrier of an action: finite, positive, and above the lower usable edge. -/
structure Carrier (mask : SpectralMask) (action : Action) (f bw : ℚ) : Prop where
  frequency : floatField py action "frequency_hz" zero = .ok (.fin f)
  bandwidth : floatField py action "bandwidth_hz" zero = .ok (.fin bw)
  frequencyPos : 0 < f
  bandwidthPos : 0 < bw
  lowerEdge : Number.le mask.usableLo (.fin (f - bw / 2)) = true

def UpperEdge (mask : SpectralMask) (f bw : ℚ) : Prop :=
  Number.le (.fin (f + bw / 2)) mask.usableHi = true

def EirpWithin (ceiling : Number) (action : Action) : Prop :=
  ∃ tx gain : ℚ, floatField py action "tx_power_dBm" zero = .ok (.fin tx) ∧
    floatField py action "antenna_gain_dBi" zero = .ok (.fin gain) ∧
    Number.le (.fin (tx + gain)) ceiling = true

def PfdWithin (ceiling : Number) (action : Action) : Prop :=
  ∃ pfd, PfdCeiling.computePfd py action = .ok pfd ∧ Number.le pfd ceiling = true

def ConstellationWithin (maxPaprDB : Number) (action : Action) : Prop :=
  action.has "constellation_order" = true →
    ∃ order papr, ConstellationLegality.orderField py action = .ok order ∧
      order ∈ ConstellationLegality.allowedOrders ∧
      floatField py action "papr_dB" zero = .ok papr ∧ Number.le papr maxPaprDB = true

namespace NumericSanity

theorem problemUnless_nil {ok : Bool} {message : String} (h : problemUnless ok message = []) :
    ok = true := by
  cases ok with
  | true => rfl
  | false => cases h

theorem numberSatisfies_iff (v : Value) (ok : ℚ → Bool) :
    numberSatisfies py v ok = true ↔ ∃ q, v.toFloat py = .ok (.fin q) ∧ ok q = true := by
  unfold numberSatisfies number
  cases v.toFloat py with
  | error e => simp
  | ok x => cases x <;> simp

theorem required_nil {action : Action} {field message : String} {ok : ℚ → Bool}
    (h : required py action field ok message = []) :
    ∃ q, (action.getD field .null).toFloat py = .ok (.fin q) ∧ ok q = true :=
  (numberSatisfies_iff py _ _).mp (problemUnless_nil h)

theorem floatField_of_required {action : Action} {field : String} {x : Number}
    (h : (action.getD field .null).toFloat py = .ok x) (default : Value) :
    floatField py action field default = .ok x := by
  unfold floatField
  cases present : Dict.get? field action with
  | none =>
    simp only [Dict.getD, present, Option.getD_none] at h
    cases h
  | some v => simpa only [Dict.getD, present, Option.getD_some] using h

theorem optional_nil {action : Action} {field message : String} {ok : ℚ → Bool}
    (h : optional py action field ok message = []) {default : Value} {q : ℚ}
    (hdefault : default.toFloat py = .ok (.fin q)) :
    ∃ q, floatField py action field default = .ok (.fin q) := by
  cases present : Dict.get? field action with
  | none => exact ⟨q, by simpa only [floatField, Dict.getD, present, Option.getD_none] using hdefault⟩
  | some v =>
    have has : action.has field = true := (Dict.has_iff _ _).mpr ⟨v, present⟩
    rw [optional, if_pos has] at h
    obtain ⟨q, hq, _⟩ := required_nil py h
    exact ⟨q, floatField_of_required py hq default⟩

/-- What a sane action carries. -/
structure Sane (action : Action) : Prop where
  frequency : ∃ q : ℚ, floatField py action "frequency_hz" zero = .ok (.fin q) ∧ 0 < q
  bandwidth : ∃ q : ℚ, floatField py action "bandwidth_hz" zero = .ok (.fin q) ∧ 0 < q
  txPower : ∃ q : ℚ, (action.getD "tx_power_dBm" .null).toFloat py = .ok (.fin q)
  antennaGain : ∃ q : ℚ, floatField py action "antenna_gain_dBi" zero = .ok (.fin q)

theorem sane_of_problems_nil {action : Action} (h : problems py action = []) :
    Sane py action := by
  simp only [problems, List.append_eq_nil_iff, List.flatMap_cons, List.flatMap_nil] at h
  obtain ⟨⟨⟨⟨⟨⟨⟨frequency, bandwidth⟩, txPower⟩, gains⟩, _⟩, _⟩, _⟩, _⟩ := h
  obtain ⟨f, hf, fPos⟩ := required_nil py frequency
  obtain ⟨bw, hbw, bwPos⟩ := required_nil py bandwidth
  obtain ⟨tx, htx, _⟩ := required_nil py txPower
  exact {
    frequency := ⟨f, floatField_of_required py hf _, of_decide_eq_true fPos⟩
    bandwidth := ⟨bw, floatField_of_required py hbw _, of_decide_eq_true bwPos⟩
    txPower := ⟨tx, htx⟩
    antennaGain := optional_nil py gains.1 rfl }

theorem sane_of_holds {action : Action} {ctx : Context} (h : Holds action ctx (invariant py)) :
    Sane py action := by
  obtain ⟨c, hc, sat⟩ := h
  cases hc
  exact sane_of_problems_nil py (List.isEmpty_iff.mp sat)

end NumericSanity

open NumericSanity (Sane)

theorem carrier_of_holds {mask : SpectralMask} {action : Action} {ctx : Context}
    (sane : Sane py action) (h : Holds action ctx (SpectralMask.invariant py mask)) :
    ∃ f bw, Carrier py mask action f bw ∧ (mask.usableHi ≠ .nan → UpperEdge mask f bw) := by
  obtain ⟨c, hc, sat⟩ := h
  obtain ⟨f, hf, fPos⟩ := sane.frequency
  obtain ⟨bw, hbw, bwPos⟩ := sane.bandwidth
  obtain ⟨⟨lo, hi⟩, hedges, hc⟩ := bind_eq_ok hc
  have edges : SpectralMask.edges py action = .ok (.fin (f - bw / 2), .fin (f + bw / 2)) := by
    simp only [SpectralMask.edges, hf, hbw, ok_bind, Number.divBy_fin, Number.fin_sub, Number.fin_add]
  rw [edges] at hedges
  cases hedges
  cases hc
  obtain ⟨lower, upper⟩ := (Number.zero_le_min_iff _ _).mp sat
  rw [Number.zero_le_fin_sub] at lower
  refine ⟨f, bw, ⟨hf, hbw, fPos, bwPos, lower⟩, fun known => ?_⟩
  rcases upper with dropped | upper
  · exfalso
    cases bound : mask.usableHi with
    | nan => exact known bound
    | inf s => rw [bound] at dropped; cases dropped
    | fin q => rw [bound] at dropped; cases dropped
  · rw [Number.zero_le_sub_fin] at upper
    exact upper

theorem eirp_of_holds {cap : MaxEirp} {action : Action} {ctx : Context}
    (sane : Sane py action) (h : Holds action ctx (MaxEirp.invariant py cap)) :
    EirpWithin py cap.maxEirpDBm action := by
  obtain ⟨c, hc, sat⟩ := h
  obtain ⟨tx, htx⟩ := sane.txPower
  have readTx := NumericSanity.floatField_of_required py htx zero
  obtain ⟨gain, hgain⟩ := sane.antennaGain
  have eirp : MaxEirp.eirp py action = .ok (.fin (tx + gain)) := by
    simp only [MaxEirp.eirp, readTx, hgain, ok_bind, Number.fin_add]
  obtain ⟨e, he, hc⟩ := bind_eq_ok hc
  rw [eirp] at he
  cases he
  cases hc
  exact ⟨tx, gain, readTx, hgain, Number.le_of_zero_le_sub sat⟩

theorem pfd_of_holds {cap : PfdCeiling} {action : Action} {ctx : Context}
    (h : Holds action ctx (PfdCeiling.invariant py cap))
    (ntn : PfdCeiling.applies action = true) : PfdWithin py cap.maxPfd action := by
  obtain ⟨c, hc, sat⟩ := h
  change PfdCeiling.evaluate py cap action ctx = .ok c at hc
  rw [PfdCeiling.evaluate, if_pos ntn] at hc
  obtain ⟨pfd, hpfd, hc⟩ := bind_eq_ok hc
  cases hc
  exact ⟨pfd, hpfd, Number.le_of_zero_le_sub sat⟩

theorem constellation_of_holds {legal : ConstellationLegality} {action : Action}
    {ctx : Context} (h : Holds action ctx (ConstellationLegality.invariant py legal)) :
    ConstellationWithin py legal.maxPaprDB action := by
  intro present
  obtain ⟨c, hc, sat⟩ := h
  obtain ⟨applied, happlied, hc⟩ := bind_eq_ok hc
  rw [ConstellationLegality.applies, if_pos present] at happlied
  cases happlied
  obtain ⟨order, horder, hc⟩ := bind_eq_ok hc
  obtain ⟨papr, hpapr, hc⟩ := bind_eq_ok hc
  obtain ⟨text, _, hc⟩ := bind_eq_ok hc
  cases hc
  obtain ⟨orderOk, paprOk⟩ := (Bool.and_eq_true _ _).mp sat
  exact ⟨order, papr, horder, of_decide_eq_true orderOk, hpapr, Number.le_of_zero_le_sub paprOk⟩

end

/-- A chain of radio invariants, with the lawful-intercept gate of `li` if there is one. -/
structure DefaultChain (py : Interpreter) (li : Option LIConstraint) (shield : Shield) :
    Prop where
  members : ∀ inv ∈ shield.invariants, inv ∈ liChain py li ∨ inv.Contained radioKeys
  gated : ∀ inv ∈ liChain py li, inv ∈ shield.invariants

theorem terrestrial_chain (py : Interpreter) (p : TerrestrialParams) :
    DefaultChain py p.liConstraint (defaultTerrestrialShield py p) where
  members := by
    intro inv member
    simp only [defaultTerrestrialShield, List.mem_append, List.mem_cons, List.not_mem_nil,
      or_false] at member
    rcases member with (rfl | gate) | rfl | rfl | rfl | rfl
    · exact Or.inr (NumericSanity.contained py)
    · exact Or.inl gate
    · exact Or.inr (SpectralMask.contained py _)
    · exact Or.inr (MaxEirp.contained py _)
    · exact Or.inr (NeuralRxEnvelope.contained py _)
    · exact Or.inr (ConstellationLegality.contained py _)
  gated := by
    intro inv gate
    simp [defaultTerrestrialShield, gate]

theorem ntn_chain (py : Interpreter) (p : NtnParams) :
    DefaultChain py p.liConstraint (defaultNtnShield py p) where
  members := by
    intro inv member
    simp only [defaultNtnShield, List.mem_append, List.mem_cons, List.not_mem_nil,
      or_false] at member
    rcases member with (rfl | gate) | rfl | rfl | rfl | rfl
    · exact Or.inr (NumericSanity.contained py)
    · exact Or.inl gate
    · exact Or.inr (SpectralMask.contained py _)
    · exact Or.inr (MaxEirp.contained py _)
    · exact Or.inr (PfdCeiling.contained py _)
    · exact Or.inr (NeuralRxEnvelope.contained py _)
  gated := by
    intro inv gate
    simp [defaultNtnShield, gate]

theorem DefaultChain.safe {py : Interpreter} {li : Option LIConstraint} {shield : Shield}
    (chain : DefaultChain py li shield) : shield.Safe := by
  intro inv member
  rcases chain.members inv member with gate | radio
  · cases li with
    | none => cases gate
    | some li =>
      rw [List.mem_singleton.mp gate]
      exact ⟨_, by decide, LawfulIntercept.contained py li⟩
  · exact ⟨radioKeys, List.subset_cons_self _ _, radio⟩

/-- A verdict is safe or blocked, never both; a certified action is `legal`, and a
    refused one carries its block. -/
structure Verdict (legal : Action → Prop) (d : ShieldDisposition) : Prop where
  opposite : d.certificate.safe = (!d.certificate.emitBlocked)
  certified : d.certificate.safe = true → legal d.safeAction
  refused : d.certificate.safe = false → isBlocked d.safeAction = true

section
variable (py : Interpreter)

structure TerrestrialLegal (p : TerrestrialParams) (ctx : Context) (action : Action) : Prop where
  chain : ∀ inv ∈ (defaultTerrestrialShield py p).invariants, Holds action ctx inv
  carrier : ∃ f bw, Carrier py p.mask action f bw ∧
    (p.mask.usableHi ≠ .nan → UpperEdge p.mask f bw)
  eirp : EirpWithin py p.maxEirpDBm action
  constellation : ConstellationWithin py p.maxPaprDB action
  notBlocked : isBlocked action = false

structure NtnLegal (p : NtnParams) (ctx : Context) (action : Action) : Prop where
  chain : ∀ inv ∈ (defaultNtnShield py p).invariants, Holds action ctx inv
  carrier : ∃ f bw, Carrier py p.mask action f bw ∧
    (p.mask.usableHi ≠ .nan → UpperEdge p.mask f bw)
  eirp : EirpWithin py p.maxEirpDBm action
  pfd : PfdCeiling.applies action = true → PfdWithin py p.maxPfd action
  notBlocked : isBlocked action = false

theorem terrestrialLegal_of_chain {p : TerrestrialParams} {ctx : Context} {action : Action}
    (chain : ∀ inv ∈ (defaultTerrestrialShield py p).invariants, Holds action ctx inv)
    (notBlocked : isBlocked action = false) : TerrestrialLegal py p ctx action := by
  have sane : NumericSanity.Sane py action :=
    NumericSanity.sane_of_holds py (chain _ (by simp [defaultTerrestrialShield]))
  exact {
    chain := chain
    carrier := carrier_of_holds py sane (chain _ (by simp [defaultTerrestrialShield]))
    eirp := eirp_of_holds py sane
      (chain (MaxEirp.invariant py ⟨p.maxEirpDBm⟩) (by simp [defaultTerrestrialShield]))
    constellation := constellation_of_holds py
      (chain (ConstellationLegality.invariant py ⟨p.maxPaprDB, "classical_qam"⟩)
        (by simp [defaultTerrestrialShield]))
    notBlocked := notBlocked }

theorem ntnLegal_of_chain {p : NtnParams} {ctx : Context} {action : Action}
    (chain : ∀ inv ∈ (defaultNtnShield py p).invariants, Holds action ctx inv)
    (notBlocked : isBlocked action = false) : NtnLegal py p ctx action := by
  have sane : NumericSanity.Sane py action :=
    NumericSanity.sane_of_holds py (chain _ (by simp [defaultNtnShield]))
  exact {
    chain := chain
    carrier := carrier_of_holds py sane (chain _ (by simp [defaultNtnShield]))
    eirp := eirp_of_holds py sane
      (chain (MaxEirp.invariant py ⟨p.maxEirpDBm⟩) (by simp [defaultNtnShield]))
    pfd := pfd_of_holds py (chain (PfdCeiling.invariant py ⟨p.maxPfd⟩) (by simp [defaultNtnShield]))
    notBlocked := notBlocked }

theorem verdict_of_dispose {shield : Shield} {legal : Action → Prop} {action : Action}
    {context : Option Context} {args : DisposeArgs} {d : ShieldDisposition}
    (h : shield.dispose py action context args = .ok d)
    (sound : ∀ safe, isBlocked safe = false →
      (∀ inv ∈ shield.invariants, Holds safe (contextOf context) inv) → legal safe) :
    Verdict legal d := by
  obtain ⟨opposite, verdict⟩ := Shield.dispose_verdict h
  refine ⟨opposite, fun safe => ?_, fun unsafeVerdict => ?_⟩
  · rcases verdict with ⟨_, free, chain⟩ | ⟨notSafe, _⟩
    · exact sound d.safeAction free chain
    · rw [safe] at notSafe
      cases notSafe
  · rcases verdict with ⟨safe, _⟩ | ⟨_, blocked⟩
    · rw [safe] at unsafeVerdict
      cases unsafeVerdict
    · exact blocked

end

/-- Shield soundness, for both factories and every action whose block prints. -/
theorem dispose_sound (py : Interpreter) (action : Action) (context : Option Context)
    (args : DisposeArgs) (printable : (action.getD "block" .null).digitsOk = true) :
    (∀ p : TerrestrialParams,
      ∃ d, (defaultTerrestrialShield py p).dispose py action context args = .ok d ∧
        Verdict (TerrestrialLegal py p (contextOf context)) d) ∧
    (∀ p : NtnParams,
      ∃ d, (defaultNtnShield py p).dispose py action context args = .ok d ∧
        Verdict (NtnLegal py p (contextOf context)) d) := by
  constructor
  · intro p
    obtain ⟨d, hd⟩ :=
      Shield.dispose_isOk (terrestrial_chain py p).safe py action context args printable
    refine ⟨d, hd, verdict_of_dispose py hd ?_⟩
    intro safe free chain
    exact terrestrialLegal_of_chain py chain free
  · intro p
    obtain ⟨d, hd⟩ :=
      Shield.dispose_isOk (ntn_chain py p).safe py action context args printable
    refine ⟨d, hd, verdict_of_dispose py hd ?_⟩
    intro safe free chain
    exact ntnLegal_of_chain py chain free

/-- An interpreter that knows no text beyond the strings it is given. -/
def plainInterpreter : Interpreter where
  floatOfStr _ := none
  intOfStr _ := none
  floatRepr _ := ""
  strRepr s := s
  log10 _ := 0

def plainArgs : DisposeArgs := ⟨"decision", none, "near-RT", none, "now"⟩

/-- A 20 MHz carrier at 5 GHz. -/
def carrierAction : Action :=
  [("frequency_hz", .float (.fin 5000000000)), ("bandwidth_hz", .float (.fin 20000000)),
    ("tx_power_dBm", .float (.fin 20))]

def testbedParams (bandHiHz : Number) : TerrestrialParams where
  bandLoHz := .fin 3500000000
  bandHiHz := bandHiHz
  maxEirpDBm := .fin 33
  liConstraint := none
  maxPaprDB := .fin 10
  neuralRxToleranceDB := .fin 1
  guardBandHz := .fin 0

theorem dispose_sound_carrier :
    (carrierAction.getD "block" .null).digitsOk = true ∧
      ∃ d, (defaultTerrestrialShield plainInterpreter (testbedParams (.fin 3600000000))).dispose
          plainInterpreter carrierAction none plainArgs = .ok d ∧
        Verdict (TerrestrialLegal plainInterpreter (testbedParams (.fin 3600000000)) []) d :=
  ⟨by decide, (dispose_sound plainInterpreter carrierAction none plainArgs (by decide)).1 _⟩

/-- A NaN upper band edge drops out of the mask margin, so the carrier is certified
    above every frequency; and a block of too many digits cannot be printed. -/
theorem dispose_unsound_nanEdge :
    (∃ d, (defaultTerrestrialShield plainInterpreter (testbedParams .nan)).dispose
          plainInterpreter carrierAction none plainArgs = .ok d ∧
        d.certificate.safe = true ∧
        ¬ ∃ f bw, Carrier plainInterpreter (testbedParams .nan).mask d.safeAction f bw ∧
          UpperEdge (testbedParams .nan).mask f bw) ∧
      (defaultTerrestrialShield plainInterpreter (testbedParams .nan)).dispose
        plainInterpreter [("block", .int intStrLimit)] none plainArgs = .error .valueError := by
  constructor
  · obtain ⟨d, hd, safe, _⟩ := Shield.dispose_of_holds
      (defaultTerrestrialShield plainInterpreter (testbedParams .nan)) plainInterpreter
      carrierAction none plainArgs (by decide) (by decide +kernel) (by decide)
    refine ⟨d, hd, safe, ?_⟩
    rintro ⟨f, bw, _, upper⟩
    cases upper
  · have tooLong : intDigitsOk intStrLimit = false := by
      simp [intDigitsOk]
    have refused : Shield.blockText plainInterpreter [("block", .int intStrLimit)] =
        .error .valueError := by
      simp [Shield.blockText, Dict.getD, Value.toStr, Value.repr, Value.digitsOk, tooLong]
    rw [Shield.dispose, refused]
    rfl

end HorizonRic
