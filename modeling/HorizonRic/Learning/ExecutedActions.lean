import HorizonRic.Learning.ShieldEnv
import HorizonRic.Evidence.Append
import HorizonRic.Shield.MinimalChange

/-!
What a step executes. A proposal that the numeric checks accept is moved to a
feasible action. One that they refuse comes back as it is, and a step executes it
wherever its frequency is not out of the band.
-/
namespace HorizonRic

open Py

namespace Learning
namespace ShieldedSpectrumEnv

open Evidence

/-- A carrier that fits a band of positive frequencies, and a finite ceiling. -/
structure Placed (env : ShieldedSpectrumEnv) (bw cap : ℚ) : Prop where
  bandwidth : env.bandwidthHz = .fin bw
  width : 0 < bw
  ceiling : env.maxEirpDbm = .fin cap
  positive : Number.lt (.fin 0) env.bandLoHz = true
  fits : Number.le (.fin bw) (env.bandHiHz - env.bandLoHz) = true

variable {env : ShieldedSpectrumEnv} {bw cap : ℚ} {py : Interpreter} {action : SpectrumAction}

theorem add_zero_number (x : Number) : x + .fin 0 = x := by
  cases x with
  | fin q => rw [Number.fin_add, add_zero]
  | nan | inf _ => rfl

theorem sub_zero_number (x : Number) : x - .fin 0 = x := by
  cases x with
  | fin q => rw [Number.fin_sub, sub_zero]
  | nan | inf _ => rfl

theorem usableLo_eq (env : ShieldedSpectrumEnv) : env.params.mask.usableLo = env.bandLoHz :=
  add_zero_number _

theorem usableHi_eq (env : ShieldedSpectrumEnv) : env.params.mask.usableHi = env.bandHiHz :=
  sub_zero_number _

theorem Placed.usable (placed : Placed env bw cap) : env.params.mask.Usable bw := by
  have width := placed.width
  have low := placed.positive
  have fits := placed.fits
  constructor
  · rw [usableLo_eq]
    exact Number.le_of_lt low
  · rw [usableLo_eq, usableHi_eq]
    cases lower : env.bandLoHz with
    | nan => rw [lower] at low; cases low
    | inf negative =>
      rw [lower] at low fits
      cases negative with
      | true => cases low
      | false =>
        cases upper : env.bandHiHz with
        | inf negative => rw [upper] at fits; cases negative <;> cases fits
        | nan | fin _ => rw [upper] at fits; cases fits
    | fin lo =>
      rw [lower] at fits
      cases upper : env.bandHiHz with
      | nan => rw [upper] at fits; cases fits
      | inf negative =>
        rw [upper] at fits
        cases negative with
        | true => cases fits
        | false => rfl
      | fin hi =>
        rw [upper, Number.fin_sub, Number.le_fin, decide_eq_true_eq] at fits
        rw [Number.lt_fin, decide_eq_true_eq]
        linarith
  · rw [usableLo_eq, usableHi_eq]
    exact fits

/-! The numbers of a payload. -/

theorem payload_frequency (default : Value) :
    floatField py (env.actionPayload action) "frequency_hz" default = .ok action.frequencyHz := rfl

theorem payload_bandwidth (default : Value) :
    floatField py (env.actionPayload action) "bandwidth_hz" default = .ok env.bandwidthHz := rfl

theorem payload_power (default : Value) :
    floatField py (env.actionPayload action) "tx_power_dBm" default = .ok action.txPowerDbm := rfl

theorem payload_gain (default : Value) :
    floatField py (env.actionPayload action) "antenna_gain_dBi" default = .ok (.fin 6) := rfl

theorem domain_payload_iff :
    NumericSanity.Domain py (env.actionPayload action) ↔
      (∃ f, action.frequencyHz = .fin f ∧ 0 < f) ∧ (∃ bw, env.bandwidthHz = .fin bw ∧ 0 < bw) ∧
        ∃ tx, action.txPowerDbm = .fin tx := by
  constructor
  · intro domain
    obtain ⟨f, read, positive⟩ := NumericSanity.Domain.number
      (domain.required "frequency_hz" (by decide))
    obtain ⟨bw, width, wide⟩ := NumericSanity.Domain.number
      (domain.required "bandwidth_hz" (by decide))
    obtain ⟨tx, power, _⟩ := NumericSanity.Domain.number
      (domain.required "tx_power_dBm" (by decide))
    rw [payload_frequency zero] at read
    rw [payload_bandwidth zero] at width
    rw [payload_power zero] at power
    exact ⟨⟨f, Except.ok.inj read, of_decide_eq_true positive⟩,
      ⟨bw, Except.ok.inj width, of_decide_eq_true wide⟩, tx, Except.ok.inj power⟩
  · rintro ⟨⟨f, frequency, positive⟩, ⟨bw, bandwidth, width⟩, tx, power⟩
    constructor
    · intro key member
      simp only [List.mem_cons, List.not_mem_nil, or_false] at member
      rcases member with rfl | rfl | rfl
      · simp [NumericSanity.Meets, actionPayload, Dict.getD, frequency,
          NumericSanity.numberSatisfies, NumericSanity.number, Value.toFloat, NumericSanity.demand,
          positive]
      · simp [NumericSanity.Meets, actionPayload, Dict.getD, bandwidth,
          NumericSanity.numberSatisfies, NumericSanity.number, Value.toFloat, NumericSanity.demand,
          width]
      · simp [NumericSanity.Meets, actionPayload, Dict.getD, power,
          NumericSanity.numberSatisfies, NumericSanity.number, Value.toFloat, NumericSanity.demand]
    · intro key member present
      simp only [NumericSanity.optionalKeys, List.mem_cons, List.not_mem_nil, or_false] at member
      rcases member with rfl | rfl | rfl | rfl | rfl | rfl | rfl
      · rfl
      all_goals cases present
    · intro ntn
      cases ntn

/-- A finite positive frequency and a finite power. -/
def Physical (action : SpectrumAction) (f tx : ℚ) : Prop :=
  action.frequencyHz = .fin f ∧ 0 < f ∧ action.txPowerDbm = .fin tx

theorem domain_iff (placed : Placed env bw cap) :
    NumericSanity.Domain py (env.actionPayload action) ↔ ∃ f tx, Physical action f tx := by
  rw [domain_payload_iff]
  constructor
  · rintro ⟨⟨f, frequency, positive⟩, _, tx, power⟩
    exact ⟨f, tx, frequency, positive, power⟩
  · rintro ⟨f, tx, frequency, positive, power⟩
    exact ⟨⟨f, frequency, positive⟩, ⟨bw, placed.bandwidth, placed.width⟩, tx, power⟩

theorem shield_invariants (env : ShieldedSpectrumEnv) (py : Interpreter) :
    (env.shield py).invariants = [NumericSanity.invariant py,
      SpectralMask.invariant py env.params.mask, MaxEirp.invariant py ⟨env.maxEirpDbm⟩,
      NeuralRxEnvelope.invariant py (neuralRx (.fin 1)),
      ConstellationLegality.invariant py ⟨.fin (17 / 2), "classical_qam"⟩] := rfl

theorem payload_classical (env : ShieldedSpectrumEnv) (action : SpectrumAction) (ctx : Context) :
    Holds (env.actionPayload action) ctx (NeuralRxEnvelope.invariant py (neuralRx (.fin 1))) ∧
      Holds (env.actionPayload action) ctx
        (ConstellationLegality.invariant py ⟨.fin (17 / 2), "classical_qam"⟩) := by
  have prints : ((env.actionPayload action).getD "block" (.str "")).toStr py =
      .ok "policy_emit" := rfl
  constructor
  · exact NeuralRxEnvelope.holds_of_other prints (by decide)
  · have absent : (env.actionPayload action).has "constellation_order" = false := rfl
    have plain : hasInfix "policy_emit" "learned_constellation" = false := by decide
    refine ⟨⟨ConstellationLegality.id, true, none, "n/a", "no constellation in decision"⟩, ?_, rfl⟩
    simp only [ConstellationLegality.invariant, ConstellationLegality.evaluate,
      ConstellationLegality.applies, absent, Bool.false_eq_true, if_false, prints, ok_bind, plain]

/-- Where the occupied band is in the licensed one and the EIRP under its ceiling. -/
def Legal (env : ShieldedSpectrumEnv) (bw : ℚ) (action : SpectrumAction) : Prop :=
  ∃ f tx, Physical action f tx ∧ env.params.mask.LegalCentre bw f ∧
    Number.le (.fin (tx + 6)) env.maxEirpDbm = true

theorem holds_payload_iff (placed : Placed env bw cap) (ctx : Context) :
    (∀ inv ∈ (env.shield py).invariants, Holds (env.actionPayload action) ctx inv) ↔
      Legal env bw action := by
  have known : env.params.mask.usableHi ≠ .nan := by
    intro unknown
    have positive := placed.usable.positive
    rw [unknown] at positive
    simp at positive
  have bandwidth : ∀ default, floatField py (env.actionPayload action) "bandwidth_hz" default =
      .ok (.fin bw) := by
    intro default
    rw [payload_bandwidth, placed.bandwidth]
  constructor
  · intro holds
    rw [shield_invariants] at holds
    obtain ⟨f, tx, physical⟩ :=
      (domain_iff placed).mp ((NumericSanity.holds_iff py).mp (holds _ (by simp)))
    have ⟨frequency, _, power⟩ := physical
    refine ⟨f, tx, physical, ?_, ?_⟩
    · apply (SpectralMask.holds_iff py known ?_ (bandwidth zero)).mp (holds _ (by simp))
      rw [payload_frequency, frequency]
    · have capped := holds (MaxEirp.invariant py ⟨env.maxEirpDbm⟩) (by simp)
      apply (MaxEirp.holds_iff py ?_ (payload_gain zero)).mp capped
      rw [payload_power, power]
  · rintro ⟨f, tx, physical, legal, within⟩ inv member
    have ⟨frequency, _, power⟩ := physical
    obtain ⟨neural, constellation⟩ := payload_classical env action ctx
    rw [shield_invariants] at member
    simp only [List.mem_cons, List.not_mem_nil, or_false] at member
    rcases member with rfl | rfl | rfl | rfl | rfl
    · exact (NumericSanity.holds_iff py).mpr ((domain_iff placed).mpr ⟨f, tx, physical⟩)
    · apply (SpectralMask.holds_iff py known ?_ (bandwidth zero)).mpr legal
      rw [payload_frequency, frequency]
    · apply (MaxEirp.holds_iff py ?_ (payload_gain zero)).mpr within
      rw [payload_power, power]
    · exact neural
    · exact constellation

theorem shield_safe (env : ShieldedSpectrumEnv) (py : Interpreter) : (env.shield py).Safe := by
  intro inv member
  rw [shield, terrestrial_invariants] at member
  exact invariantsOf_safe py (terrestrial_noFloor _) inv member

/-- The mask of the environment is the Shield's own predicate. -/
theorem isFeasible_iff (placed : Placed env bw cap) :
    env.isFeasible py action = .ok true ↔ Legal env bw action := by
  have checkable := fun inv member => (shield_safe env py inv member).checkable
  obtain ⟨feasible, answers, oracle⟩ :=
    feasibleAll_isOk checkable (env.actionPayload action) (contextOf none)
  rw [← holds_payload_iff placed (contextOf none), ← oracle, isFeasible, Shield.isFeasible,
    answers, Except.ok.injEq]

/-! What the Shield gives back for a payload. -/

theorem readFloat_of_meets {safe : Action} {key : String}
    (meets : NumericSanity.Meets py safe key) :
    ∃ q, readFloat py safe key = .ok (.fin q) ∧
      ∀ default, floatField py safe key default = .ok (.fin q) := by
  obtain ⟨q, read, _⟩ := (NumericSanity.numberSatisfies_iff py _ _).mp meets
  refine ⟨q, ?_, NumericSanity.floatField_of_required py read⟩
  rw [Dict.getD] at read
  rw [readFloat]
  cases present : Dict.get? key safe with
  | none =>
    rw [present] at read
    cases read
  | some v =>
    rw [present] at read
    exact read

theorem proposed_payload (placed : Placed env bw cap) {f tx : ℚ} (physical : Physical action f tx) :
    Proposed py env.params.mask (env.actionPayload action) f bw tx 6 where
  domain := (domain_iff placed).mpr ⟨f, tx, physical⟩
  order v present := by cases present
  printable := rfl
  unblocked := rfl
  frequency := by rw [payload_frequency, physical.1]
  bandwidth := by rw [payload_bandwidth, placed.bandwidth]
  power := by rw [payload_power, physical.2.2]
  antenna := payload_gain zero
  usable := placed.usable

variable (py) in
/-- An accepted proposal comes back as the numbers of a legal action. -/
theorem dispose_physical (placed : Placed env bw cap) {f tx : ℚ}
    (physical : Physical action f tx) (args : DisposeArgs) :
    ∃ d executed, (env.shield py).dispose py (env.actionPayload action) (some []) args = .ok d ∧
      readFloat py d.safeAction "frequency_hz" = .ok executed.frequencyHz ∧
      readFloat py d.safeAction "tx_power_dBm" = .ok executed.txPowerDbm ∧
      Legal env bw executed := by
  have layered : Layered env.params.mask env.params.chain :=
    terrestrial_layered rfl (show Number.le (.fin 0) (.fin (17 / 2)) = true by norm_num [Number.le_fin])
  have measured : Measured py (contextOf (some [])) := Or.inl rfl
  have reachable : ∀ k ∈ env.params.chain, k.Reachable (env.actionPayload action) := by
    have attainable : Attainable env.maxEirpDbm := by
      rw [placed.ceiling]
      exact ⟨(fun impossible => nomatch impossible), (fun impossible => nomatch impossible)⟩
    simp [params, TerrestrialParams.chain, InvariantClass.ofIntercept, InvariantClass.Reachable,
      attainable]
  obtain ⟨d, disposed, minimal⟩ := layered.dispose_settled (terrestrial_invariants py env.params)
    (show (8 : Nat) ≠ 0 by decide) (proposed_payload placed physical) measured
    reachable args
  have holds : ∀ inv ∈ (env.shield py).invariants, Holds d.safeAction [] inv := by
    rcases (Shield.dispose_verdict disposed).2 with ⟨_, _, holds⟩ | ⟨refused, _⟩
    · exact holds
    · rw [minimal.safe] at refused
      cases refused
  rw [shield_invariants] at holds
  have domain := (NumericSanity.holds_iff py).mp (holds (NumericSanity.invariant py) (by simp))
  obtain ⟨c, frequency, centre⟩ := readFloat_of_meets (domain.required "frequency_hz" (by decide))
  obtain ⟨t, power, emitted⟩ := readFloat_of_meets (domain.required "tx_power_dBm" (by decide))
  have bandwidth : floatField py d.safeAction "bandwidth_hz" zero = .ok (.fin bw) := by
    rw [floatField, minimal.kept.getD (by decide)]
    exact (proposed_payload placed physical).bandwidth
  have antenna : floatField py d.safeAction "antenna_gain_dBi" zero = .ok (.fin 6) := by
    rw [floatField, minimal.kept.getD (by decide)]
    rfl
  have known := (show Proposed py env.params.mask (env.actionPayload action) f bw tx 6 from
    proposed_payload placed physical).known
  have legal := (SpectralMask.holds_iff py known (centre zero) bandwidth).mp
    (holds (SpectralMask.invariant py env.params.mask) (by simp))
  have within := (MaxEirp.holds_iff py (emitted zero) antenna).mp
    (holds (MaxEirp.invariant py ⟨env.maxEirpDbm⟩) (by simp))
  exact ⟨d, ⟨.fin c, .fin t⟩, disposed, frequency, power, c, t,
    ⟨rfl, centre_pos placed.usable placed.width legal, rfl⟩, legal, within⟩

variable (py) in
/-- A refused proposal comes back as it is. -/
theorem dispose_unphysical (placed : Placed env bw cap)
    (unphysical : ¬ ∃ f tx, Physical action f tx) (args : DisposeArgs) :
    ∃ d, (env.shield py).dispose py (env.actionPayload action) (some []) args = .ok d ∧
      readFloat py d.safeAction "frequency_hz" = .ok action.frequencyHz ∧
      readFloat py d.safeAction "tx_power_dBm" = .ok action.txPowerDbm := by
  have fails : ¬ Holds (env.actionPayload action) (contextOf (some []))
      (NumericSanity.invariant py) := by
    rw [NumericSanity.holds_iff, domain_iff placed]
    exact unphysical
  have insane : NumericSanity.problems py (env.actionPayload action) ≠ [] := by
    rwa [NumericSanity.holds_iff, ← NumericSanity.problems_iff] at fails
  obtain ⟨corr, blocks⟩ := NumericSanity.project_insane py (contextOf (some [])) insane
  obtain ⟨d, disposed, same⟩ := Shield.dispose_refused (shield_invariants env py)
    (shield_safe env py) (show (8 : Nat) ≠ 0 by decide) py args fails blocks rfl
  refine ⟨d, disposed, ?_, ?_⟩
  · rw [same]
    rfl
  · rw [same]
    rfl

/-! What a step returns. -/

/-- The record of the step is the last one of the store. -/
def Recorded (platform : Platform) (args : StepArgs) (result : StepResult)
    (before after : Option EvidenceStore) : Prop :=
  before = none ∧ after = none ∨ ∃ store store' hash, before = some store ∧ after = some store' ∧
    store.append platform args.tenant (stepRecord args result) = .ok (store', hash)

theorem record_cases {platform : Platform} {args : StepArgs} {result : StepResult}
    {before after : Option EvidenceStore} (h : record platform args result before = .ok after) :
    Recorded platform args result before after := by
  cases before with
  | none =>
    cases h
    exact Or.inl ⟨rfl, rfl⟩
  | some store =>
    obtain ⟨⟨store', hash⟩, appended, h⟩ := bind_eq_ok h
    cases h
    exact Or.inr ⟨store, store', hash, rfl, rfl, appended⟩

theorem step_cases {platform : Platform} {proposed : SpectrumAction} {args : StepArgs}
    {before after : Option EvidenceStore} {result : StepResult}
    (h : env.step platform proposed args before = .ok (result, after)) :
    ∃ d, (env.shield platform.py).dispose platform.py (env.actionPayload proposed) (some [])
        (disposeArgs args) = .ok d ∧
      readFloat platform.py d.safeAction "frequency_hz" = .ok result.executed.frequencyHz ∧
      readFloat platform.py d.safeAction "tx_power_dBm" = .ok result.executed.txPowerDbm ∧
      env.reward platform.py result.executed = some result.reward ∧
      Recorded platform args result before after := by
  obtain ⟨d, disposed, h⟩ := bind_eq_ok h
  obtain ⟨result', executed, h⟩ := bind_eq_ok h
  obtain ⟨after', recorded, h⟩ := bind_eq_ok h
  cases h
  obtain ⟨frequency, readFrequency, executed⟩ := bind_eq_ok executed
  obtain ⟨power, readPower, executed⟩ := bind_eq_ok executed
  dsimp only at executed
  split at executed
  · cases executed
  · rename_i realised
    cases executed
    exact ⟨d, disposed, readFrequency, readPower, realised, record_cases recorded⟩

/-- In the band, what the Shield gave back is executed. -/
theorem execute_isOk {d : ShieldDisposition} {executed : SpectrumAction} {realised : Number}
    (frequency : readFloat py d.safeAction "frequency_hz" = .ok executed.frequencyHz)
    (power : readFloat py d.safeAction "tx_power_dBm" = .ok executed.txPowerDbm)
    (rewarded : env.reward py executed = some realised) (proposed : SpectrumAction) :
    ∃ result, env.execute py proposed d = .ok result ∧ result.executed = executed := by
  cases executed
  simp only [execute, frequency, power, ok_bind, rewarded]
  exact ⟨_, rfl, rfl⟩

/-- Whatever a step returns as executed is feasible, rewarded and recorded. -/
def ExecutesFeasible (env : ShieldedSpectrumEnv) (platform : Platform) (proposed : SpectrumAction)
    (args : StepArgs) : Prop :=
  ∀ before result after, env.step platform proposed args before = .ok (result, after) →
    env.isFeasible platform.py result.executed = .ok true ∧
      env.reward platform.py result.executed = some result.reward ∧
      Recorded platform args result before after

def outOfBand (env : ShieldedSpectrumEnv) (proposed : SpectrumAction) : Bool :=
  Number.lt proposed.frequencyHz env.bandLoHz || Number.lt env.bandHiHz proposed.frequencyHz

theorem reward_none (outside : env.outOfBand action = true) : env.reward py action = none := by
  have none : env.subbandFor action.frequencyHz = none := if_pos outside
  rw [reward, none]

theorem reward_some (inside : env.outOfBand action = false) :
    ∃ realised, env.reward py action = some realised := by
  have subband : env.subbandFor action.frequencyHz =
      some (argmin fun b => numberAbs (subbandCenterHz b - action.frequencyHz)) :=
    if_neg (Bool.not_eq_true _ ▸ inside)
  rw [reward, subband]
  exact ⟨_, rfl⟩

/-- A frequency that is not positive is below the band. -/
theorem outOfBand_of_nonpos (placed : Placed env bw cap) {f : ℚ}
    (frequency : action.frequencyHz = .fin f) (nonpos : f ≤ 0) : env.outOfBand action = true := by
  have low := placed.positive
  have below : Number.lt (.fin f) env.bandLoHz = true := by
    cases lower : env.bandLoHz with
    | nan => rw [lower] at low; cases low
    | inf negative =>
      rw [lower] at low
      cases negative with
      | true => cases low
      | false => rfl
    | fin lo =>
      rw [lower, Number.lt_fin, decide_eq_true_eq] at low
      rw [Number.lt_fin, decide_eq_true_eq]
      linarith
  rw [outOfBand, frequency, below, Bool.true_or]

/-- In the band a refused proposal is executed. -/
theorem not_executesFeasible (placed : Placed env bw cap)
    (unphysical : ¬ ∃ f tx, Physical action f tx) (inside : env.outOfBand action = false)
    (platform : Platform) (args : StepArgs) : ¬ ExecutesFeasible env platform action args := by
  intro executes
  obtain ⟨d, disposed, frequency, power⟩ :=
    dispose_unphysical platform.py placed unphysical (disposeArgs args)
  obtain ⟨realised, rewarded⟩ := reward_some inside
  obtain ⟨result, executed, same⟩ := execute_isOk frequency power rewarded action
  have stepped : env.step platform action args none = .ok (result, none) := by
    simp only [step, disposed, ok_bind, executed, record]
  obtain ⟨feasible, _⟩ := executes none result none stepped
  rw [same, isFeasible_iff placed] at feasible
  obtain ⟨f, tx, physical, _⟩ := feasible
  exact unphysical ⟨f, tx, physical⟩

theorem executed_eq {a b : SpectrumAction}
    (frequency : (.ok a.frequencyHz : Except PyErr Number) = .ok b.frequencyHz)
    (power : (.ok a.txPowerDbm : Except PyErr Number) = .ok b.txPowerDbm) : a = b := by
  cases a
  cases b
  cases frequency
  cases power
  rfl

theorem finite_cases {x : Number} (finite : x.isFinite = true) : ∃ q, x = .fin q := by
  cases x with
  | fin q => exact ⟨q, rfl⟩
  | nan | inf _ => cases finite

/-- A step executes feasible actions only, exactly on the proposals of finite numbers and
    on those out of the band, where it raises. -/
theorem step_executes_feasible_iff (env : ShieldedSpectrumEnv) {bw cap : ℚ}
    (placed : Placed env bw cap) (platform : Platform) (proposed : SpectrumAction)
    (args : StepArgs) :
    ExecutesFeasible env platform proposed args ↔
      (proposed.frequencyHz.isFinite = true ∧ proposed.txPowerDbm.isFinite = true) ∨
        Number.lt proposed.frequencyHz env.bandLoHz = true ∨
        Number.lt env.bandHiHz proposed.frequencyHz = true := by
  have outside : env.outOfBand proposed = true ↔
      Number.lt proposed.frequencyHz env.bandLoHz = true ∨
        Number.lt env.bandHiHz proposed.frequencyHz = true := by
    rw [outOfBand, Bool.or_eq_true]
  rw [← outside]
  by_cases accepted : ∃ f tx, Physical proposed f tx
  · obtain ⟨f, tx, physical⟩ := accepted
    constructor
    · intro _
      left
      rw [physical.1, physical.2.2]
      exact ⟨rfl, rfl⟩
    · intro _ before result after stepped
      obtain ⟨d, disposed, frequency, power, realised, recorded⟩ := step_cases stepped
      obtain ⟨d', executed, disposed', frequency', power', legal⟩ :=
        dispose_physical platform.py placed physical (disposeArgs args)
      rw [disposed] at disposed'
      cases disposed'
      have same := executed_eq (frequency.symm.trans frequency') (power.symm.trans power')
      refine ⟨?_, realised, recorded⟩
      rw [same, isFeasible_iff placed]
      exact legal
  · obtain ⟨d, disposed, frequency, power⟩ :=
      dispose_unphysical platform.py placed accepted (disposeArgs args)
    constructor
    · intro executes
      right
      -- in the band the step returns the proposal, which is not feasible
      by_contra inside
      exact not_executesFeasible placed accepted (Bool.eq_false_of_not_eq_true inside) platform args
        executes
    · intro condition before result after stepped
      have outOf : env.outOfBand proposed = true := by
        rcases condition with ⟨finiteFrequency, finitePower⟩ | outOf
        · obtain ⟨f, isFrequency⟩ := finite_cases finiteFrequency
          obtain ⟨tx, isPower⟩ := finite_cases finitePower
          refine outOfBand_of_nonpos placed isFrequency (not_lt.mp fun positive => ?_)
          exact accepted ⟨f, tx, isFrequency, positive, isPower⟩
        · exact outOf
      obtain ⟨d', disposed', frequency', power', realised, _⟩ := step_cases stepped
      rw [disposed] at disposed'
      cases disposed'
      have same := executed_eq (frequency'.symm.trans frequency) (power'.symm.trans power)
      rw [same, reward_none outOf] at realised
      cases realised

/-- One receiver, the same gain in every subband. -/
def oneReceiver : ShieldedSpectrumEnv := { gains := [fun _ => .fin (-100)] }

theorem oneReceiver_placed : Placed oneReceiver 20000000 33 where
  bandwidth := rfl
  width := by norm_num
  ceiling := rfl
  positive := by decide
  fits := by norm_num [oneReceiver, Number.le_fin]

def stepArgs : StepArgs := { decisionId := "step-1", issuedAt := "now", timestamp := "now" }

theorem step_executes_feasible_oneReceiver :
    Placed oneReceiver 20000000 33 ∧
      ExecutesFeasible oneReceiver samplePlatform ⟨.fin 3500000000, .fin 40⟩ stepArgs :=
  ⟨oneReceiver_placed,
    (step_executes_feasible_iff oneReceiver oneReceiver_placed samplePlatform _ _).mpr
      (Or.inl ⟨rfl, rfl⟩)⟩

/-- Infinite power in the band is blocked by the Shield, and executed. -/
theorem infinite_power_executed :
    Placed oneReceiver 20000000 33 ∧
      ¬ ExecutesFeasible oneReceiver samplePlatform ⟨.fin 3500000000, .inf false⟩ stepArgs := by
  refine ⟨oneReceiver_placed, not_executesFeasible oneReceiver_placed ?_ (by decide) _ _⟩
  rintro ⟨f, tx, _, _, power⟩
  cases power

end ShieldedSpectrumEnv
end Learning
end HorizonRic
