import HorizonRic.Learning.ExecutedActions

/-!
When a step records finite numbers. The Shield moves a finite proposal to finite numbers
unless an edge of the band or the ceiling is infinite on the wrong side, and the reward is
finite once there is a receiver.
-/
namespace HorizonRic

open Py

namespace Learning
namespace ShieldedSpectrumEnv

open Evidence

/-- Clipping to the band gives a finite frequency. -/
def edgesFinite (env : ShieldedSpectrumEnv) : Bool :=
  match env.bandLoHz, env.bandHiHz with
  | .inf false, .inf false => false
  | .inf false, .nan => false
  | .inf true, .inf true => false
  | .nan, .inf true => false
  | _, _ => true

/-- The numeric checks accept the proposal, and its carrier fits the band. -/
def Placeable (env : ShieldedSpectrumEnv) (proposed : SpectrumAction) : Prop :=
  Number.lt (.fin 0) proposed.frequencyHz = true ∧ env.bandwidthHz.isFinite = true ∧
    Number.lt (.fin 0) env.bandwidthHz = true ∧
    Number.lt (env.bandHiHz - env.bandLoHz) env.bandwidthHz = false

/-- The numbers that the Shield gives back for the proposal are finite. -/
def StaysFinite (env : ShieldedSpectrumEnv) (proposed : SpectrumAction) : Prop :=
  Placeable env proposed → env.edgesFinite = true ∧ env.maxEirpDbm ≠ .inf true

/-- An action of the environment with finite numbers. -/
structure Numbers (env : ShieldedSpectrumEnv) (action : Action) : Prop where
  frequency : ∃ f : ℚ, Dict.get? "frequency_hz" action = some (.float (.fin f))
  power : ∃ tx : ℚ, Dict.get? "tx_power_dBm" action = some (.float (.fin tx))
  bandwidth : Dict.get? "bandwidth_hz" action = some (.float env.bandwidthHz)
  antenna : Dict.get? "antenna_gain_dBi" action = some (.float antennaGainDbi)

def recordedKeys : List String :=
  ["frequency_hz", "tx_power_dBm", "bandwidth_hz", "antenna_gain_dBi"]

variable {env : ShieldedSpectrumEnv} {py : Interpreter} {action next : Action} {bw : ℚ}

/-- Writing any value, as long as both numbers are finite afterwards. -/
theorem Numbers.write (numbers : Numbers env action) {key : String} (v : Value)
    (bandwidthKept : key ≠ "bandwidth_hz") (antennaKept : key ≠ "antenna_gain_dBi")
    (frequency : ∃ f : ℚ, Dict.get? "frequency_hz" (action.set key v) = some (.float (.fin f)))
    (power : ∃ tx : ℚ, Dict.get? "tx_power_dBm" (action.set key v) = some (.float (.fin tx))) :
    Numbers env (action.set key v) where
  frequency := frequency
  power := power
  bandwidth := by
    rw [Dict.get?_set_ne _ _ bandwidthKept]
    exact numbers.bandwidth
  antenna := by
    rw [Dict.get?_set_ne _ _ antennaKept]
    exact numbers.antenna

theorem Numbers.set_other (numbers : Numbers env action) {key : String}
    (other : key ∉ recordedKeys) (v : Value) : Numbers env (action.set key v) := by
  have ne : ∀ k ∈ recordedKeys, key ≠ k := by
    rintro k member rfl
    exact other member
  apply numbers.write v (ne _ (by decide)) (ne _ (by decide))
  · rw [Dict.get?_set_ne _ _ (ne _ (by decide))]
    exact numbers.frequency
  · rw [Dict.get?_set_ne _ _ (ne _ (by decide))]
    exact numbers.power

theorem Numbers.block (numbers : Numbers env action) : Numbers env (block action) :=
  numbers.set_other (by decide) _

theorem Numbers.setFrequency (numbers : Numbers env action) (f : ℚ) :
    Numbers env (action.set "frequency_hz" (.float (.fin f))) := by
  apply numbers.write _ (by decide) (by decide) ⟨f, Dict.get?_set_self _ _ _⟩
  rw [Dict.get?_set_ne _ _ (by decide)]
  exact numbers.power

theorem Numbers.setPower (numbers : Numbers env action) (tx : ℚ) :
    Numbers env (action.set "tx_power_dBm" (.float (.fin tx))) := by
  apply numbers.write _ (by decide) (by decide) ?_ ⟨tx, Dict.get?_set_self _ _ _⟩
  rw [Dict.get?_set_ne _ _ (by decide)]
  exact numbers.frequency

theorem floatField_of_get {key : String} {x : Number}
    (found : Dict.get? key action = some (.float x)) (default : Value) :
    floatField py action key default = .ok x := by
  rw [floatField, Dict.getD, found]
  rfl

theorem readFloat_of_get {key : String} {x : Number}
    (found : Dict.get? key action = some (.float x)) : readFloat py action key = .ok x := by
  rw [readFloat, found]
  rfl

/-! The projections keep the numbers finite. -/

/-- From finite numbers to finite numbers. -/
def KeepsNumbers (env : ShieldedSpectrumEnv) (before after : Action) : Prop :=
  Numbers env before → Numbers env after

theorem frame_keepsNumbers (env : ShieldedSpectrumEnv) : Frame (KeepsNumbers env) where
  refl _ := id
  trans first second := second ∘ first
  block _ := Numbers.block

theorem clip_finite (edges : env.edgesFinite = true)
    (fits : Number.lt (env.bandHiHz - env.bandLoHz) (.fin bw) = false) (f : ℚ) :
    ∃ c, env.params.mask.clip bw f = .fin c := by
  rw [SpectralMask.clip, usableLo_eq, usableHi_eq, Number.divBy_fin]
  unfold edgesFinite at edges
  cases lower : env.bandLoHz with
  | nan =>
    cases upper : env.bandHiHz with
    | nan => exact ⟨_, rfl⟩
    | inf negative =>
      cases negative with
      | false => exact ⟨_, rfl⟩
      | true =>
        rw [lower, upper] at edges
        cases edges
    | fin hi => exact ⟨_, Number.min_fin _ _⟩
  | inf negative =>
    cases upper : env.bandHiHz with
    | nan =>
      cases negative with
      | true => exact ⟨_, rfl⟩
      | false =>
        rw [lower, upper] at edges
        cases edges
    | inf negative' =>
      rw [lower, upper] at edges fits
      cases negative with
      | false =>
        cases negative' with
        | false => cases edges
        | true => cases fits
      | true =>
        cases negative' with
        | false => exact ⟨_, rfl⟩
        | true => cases edges
    | fin hi =>
      rw [lower, upper] at fits
      cases negative with
      | true => exact ⟨_, Number.min_fin _ _⟩
      | false => cases fits
  | fin lo =>
    rw [Number.fin_add, Number.max_fin]
    cases upper : env.bandHiHz with
    | nan => exact ⟨_, rfl⟩
    | inf negative =>
      rw [lower, upper] at fits
      cases negative with
      | false => exact ⟨_, rfl⟩
      | true => cases fits
    | fin hi => exact ⟨_, Number.min_fin _ _⟩

section
variable (bandwidth : env.bandwidthHz = .fin bw)
include bandwidth

theorem mask_keepsNumbers (edges : env.edgesFinite = true) :
    (SpectralMask.invariant py env.params.mask).Respects (KeepsNumbers env) := by
  intro action ctx next corr projected numbers
  obtain ⟨f, frequency⟩ := numbers.frequency
  obtain ⟨width, readWidth, projected⟩ := bind_eq_ok projected
  rw [floatField_of_get numbers.bandwidth, bandwidth] at readWidth
  cases readWidth
  split at projected
  · cases projected
    exact numbers.block
  · rename_i fits
    rw [usableLo_eq, usableHi_eq, Bool.not_eq_true] at fits
    obtain ⟨centre, readCentre, projected⟩ := bind_eq_ok projected
    rw [floatField_of_get frequency] at readCentre
    cases readCentre
    dsimp only at projected
    split at projected
    · cases projected
      exact numbers
    · cases projected
      obtain ⟨c, clipped⟩ := clip_finite edges fits f
      rw [SpectralMask.clip] at clipped
      rw [clipped]
      exact numbers.setFrequency c

omit bandwidth in
theorem eirp_keepsNumbers (ceiling : env.maxEirpDbm ≠ .inf true) :
    (MaxEirp.invariant py ⟨env.maxEirpDbm⟩).Respects (KeepsNumbers env) := by
  intro action ctx next corr projected numbers
  obtain ⟨tx, power⟩ := numbers.power
  obtain ⟨e, emitted, projected⟩ := bind_eq_ok projected
  rw [MaxEirp.eirp, floatField_of_get power, ok_bind, floatField_of_get numbers.antenna,
    ok_bind] at emitted
  cases emitted
  dsimp only at projected
  split at projected
  · rename_i above
    obtain ⟨tx', readPower, projected⟩ := bind_eq_ok projected
    rw [floatField_of_get power] at readPower
    cases readPower
    cases projected
    cases cap : env.maxEirpDbm with
    | nan =>
      rw [cap] at above
      cases above
    | inf negative =>
      rw [cap] at above ceiling
      cases negative with
      | true => exact absurd rfl ceiling
      | false => cases above
    | fin q => exact numbers.setPower _
  · cases projected
    exact numbers

theorem invariants_keepNumbers (edges : env.edgesFinite = true)
    (ceiling : env.maxEirpDbm ≠ .inf true) :
    ∀ inv ∈ (env.shield py).invariants, inv.Respects (KeepsNumbers env) := by
  intro inv member
  rw [shield_invariants] at member
  simp only [List.mem_cons, List.not_mem_nil, or_false] at member
  rcases member with rfl | rfl | rfl | rfl | rfl
  · intro action ctx next corr projected numbers
    rcases NumericSanity.project_cases py ctx projected with ⟨_, rfl, _⟩ | ⟨_, rfl⟩
    · exact numbers
    · exact numbers.block
  · exact mask_keepsNumbers bandwidth edges
  · exact eirp_keepsNumbers ceiling
  · intro action ctx next corr projected numbers
    rcases NeuralRxEnvelope.project_cases py _ ctx projected with ⟨rfl, _⟩ | ⟨predicted, rfl⟩
    · exact numbers
    · exact ((numbers.set_other (by decide) _).set_other (by decide) _).set_other (by decide) _
  · have repaired : ∀ {a b : Action},
        ConstellationLegality.Repaired ⟨.fin (17 / 2), "classical_qam"⟩ a b →
          Numbers env a → Numbers env b := by
      rintro a b (rfl | ⟨key, v, field, rfl⟩) numbers
      · exact numbers
      · have other : key ∉ recordedKeys := by rcases field with rfl | rfl <;> decide
        exact ((numbers.set_other other _).set_other (by decide) _).set_other (by decide) _
    intro action ctx next corr projected numbers
    obtain ⟨snapped, first, second⟩ := ConstellationLegality.project_cases py _ ctx projected
    exact repaired second (repaired first numbers)

end

/-! What the Shield gives back. -/

/-- A first sweep that blocks the action as it is ends the loop. -/
theorem dispose_halted {shield : Shield} {P : Action → Prop} (kept : ∀ a, P a → P (block a))
    (start : P action) {ctx : Context} {args : DisposeArgs} {corr : List ConstraintViolation}
    (sweep : projectAll ctx shield.invariants action = .ok (block action, corr))
    {d : ShieldDisposition} (disposed : shield.dispose py action (some ctx) args = .ok d) :
    P d.safeAction := by
  obtain ⟨text, _, disposed⟩ := bind_eq_ok disposed
  obtain ⟨s, loop, certified⟩ := bind_eq_ok disposed
  have ended : P s.safe := by
    cases passes : shield.maxPasses with
    | zero =>
      rw [passes] at loop
      cases loop
      exact start
    | succ n =>
      rw [passes] at loop
      obtain ⟨checks, _, loop⟩ := bind_eq_ok loop
      split at loop
      · cases loop
        exact start
      · obtain ⟨swept, projected, loop⟩ := bind_eq_ok loop
        change projectAll ctx shield.invariants action = _ at projected
        rw [sweep] at projected
        cases projected
        dsimp only at loop
        rw [if_pos (isBlocked_block action)] at loop
        cases loop
        exact kept _ start
  rcases (Shield.certify_cases certified).2 with ⟨_, same, _⟩ | ⟨_, _, same | blocked⟩
  · exact same ▸ ended
  · exact same ▸ ended
  · exact blocked ▸ kept _ ended

theorem payload_numbers {proposed : SpectrumAction} {f tx : ℚ}
    (frequency : proposed.frequencyHz = .fin f) (power : proposed.txPowerDbm = .fin tx) :
    Numbers env (env.actionPayload proposed) where
  frequency := ⟨f, by rw [← frequency]; rfl⟩
  power := ⟨tx, by rw [← power]; rfl⟩
  bandwidth := rfl
  antenna := rfl

theorem insane_sweep {proposed : SpectrumAction} (ctx : Context)
    (insane : NumericSanity.problems py (env.actionPayload proposed) ≠ []) : ∃ corr,
    projectAll ctx (env.shield py).invariants (env.actionPayload proposed) =
      .ok (block (env.actionPayload proposed), corr) := by
  obtain ⟨corr, refused⟩ := NumericSanity.project_insane py ctx insane
  refine ⟨corr, ?_⟩
  rw [shield_invariants, projectAll, refused]
  exact if_pos (isBlocked_block _)

theorem wide_sweep {proposed : SpectrumAction} (ctx : Context)
    (sane : NumericSanity.problems py (env.actionPayload proposed) = [])
    (wide : Number.lt (env.bandHiHz - env.bandLoHz) env.bandwidthHz = true) : ∃ corr,
    projectAll ctx (env.shield py).invariants (env.actionPayload proposed) =
      .ok (block (env.actionPayload proposed), corr) := by
  have accepted := NumericSanity.project_sane py ctx sane
  have free : isBlocked (env.actionPayload proposed) = false := rfl
  obtain ⟨corr, refused⟩ : ∃ corr, (SpectralMask.invariant py env.params.mask).project
      (env.actionPayload proposed) ctx = .ok (block (env.actionPayload proposed), corr) := by
    simp only [SpectralMask.invariant, SpectralMask.project, payload_bandwidth, ok_bind,
      usableLo_eq, usableHi_eq, wide, if_true]
    exact ⟨_, rfl⟩
  refine ⟨[] ++ corr, ?_⟩
  rw [shield_invariants, projectAll, accepted]
  dsimp only
  rw [free, if_neg Bool.false_ne_true, projectAll, refused]
  dsimp only
  rw [if_pos (isBlocked_block _)]
  rfl

/-- The numbers of the disposition of a finite proposal. -/
theorem disposed_numbers {proposed : SpectrumAction} {f tx : ℚ}
    (frequency : proposed.frequencyHz = .fin f) (power : proposed.txPowerDbm = .fin tx)
    (stays : StaysFinite env proposed) {args : DisposeArgs} {d : ShieldDisposition}
    (disposed : (env.shield py).dispose py (env.actionPayload proposed) (some []) args = .ok d) :
    Numbers env d.safeAction := by
  have start : Numbers env (env.actionPayload proposed) := payload_numbers frequency power
  by_cases sane : NumericSanity.problems py (env.actionPayload proposed) = []
  · have domain := (NumericSanity.problems_iff py).mp sane
    obtain ⟨g, read, positive⟩ := NumericSanity.Domain.number
      (domain.required "frequency_hz" (by decide))
    obtain ⟨bw, readWidth, width⟩ := NumericSanity.Domain.number
      (domain.required "bandwidth_hz" (by decide))
    rw [payload_frequency zero] at read
    rw [payload_bandwidth zero] at readWidth
    have bandwidth : env.bandwidthHz = .fin bw := Except.ok.inj readWidth
    by_cases wide : Number.lt (env.bandHiHz - env.bandLoHz) env.bandwidthHz = true
    · obtain ⟨corr, sweep⟩ := wide_sweep [] sane wide
      exact dispose_halted (P := Numbers env) (fun _ => Numbers.block) start sweep disposed
    · obtain ⟨edges, ceiling⟩ := stays (by
        refine ⟨?_, ?_, ?_, (Bool.not_eq_true _).mp wide⟩
        · rw [Except.ok.inj read]
          exact positive
        · rw [bandwidth]
          rfl
        · rw [bandwidth]
          exact width)
      exact Shield.dispose_respects (frame_keepsNumbers env)
        (invariants_keepNumbers bandwidth edges ceiling) disposed start
  · obtain ⟨corr, sweep⟩ := insane_sweep [] sane
    exact dispose_halted (P := Numbers env) (fun _ => Numbers.block) start sweep disposed

/-! The results of a step. -/

theorem meanOf_finite {flags : List Bool} (some_ : flags ≠ []) : (meanOf flags).isFinite = true := by
  rw [meanOf, if_neg some_]
  rfl

theorem reward_finite (receiver : env.gains ≠ []) {executed : SpectrumAction} {realised : Number}
    (rewarded : env.reward py executed = some realised) : realised.isFinite = true := by
  unfold reward at rewarded
  split at rewarded
  · cases rewarded
  · cases rewarded
    apply meanOf_finite
    simpa using receiver

theorem step_proposed {platform : Platform} {proposed : SpectrumAction} {args : StepArgs}
    {before after : Option EvidenceStore} {result : StepResult}
    (h : env.step platform proposed args before = .ok (result, after)) :
    result.proposed = proposed := by
  obtain ⟨d, _, h⟩ := bind_eq_ok h
  obtain ⟨result', executed, h⟩ := bind_eq_ok h
  obtain ⟨after', _, h⟩ := bind_eq_ok h
  cases h
  obtain ⟨frequency, _, executed⟩ := bind_eq_ok executed
  obtain ⟨power, _, executed⟩ := bind_eq_ok executed
  dsimp only at executed
  split at executed
  · cases executed
  · cases executed
    rfl

/-- All numbers of a result are finite. -/
structure FiniteResult (result : StepResult) : Prop where
  frequency : ∃ f : ℚ, result.proposed.frequencyHz = .fin f
  power : ∃ tx : ℚ, result.proposed.txPowerDbm = .fin tx
  executedFrequency : ∃ f : ℚ, result.executed.frequencyHz = .fin f
  executedPower : ∃ tx : ℚ, result.executed.txPowerDbm = .fin tx
  reward : ∃ q : ℚ, result.reward = .fin q

theorem step_finite {platform : Platform} {proposed : SpectrumAction} {args : StepArgs}
    {before after : Option EvidenceStore} {result : StepResult}
    (finite : proposed.frequencyHz.isFinite = true ∧ proposed.txPowerDbm.isFinite = true)
    (receiver : env.gains ≠ []) (stays : StaysFinite env proposed)
    (stepped : env.step platform proposed args before = .ok (result, after)) :
    FiniteResult result := by
  obtain ⟨f, frequency⟩ := finite_cases finite.1
  obtain ⟨tx, power⟩ := finite_cases finite.2
  obtain ⟨d, disposed, readFrequency, readPower, rewarded, _⟩ := step_cases stepped
  have same := step_proposed stepped
  have numbers := disposed_numbers frequency power stays disposed
  obtain ⟨c, centre⟩ := numbers.frequency
  obtain ⟨t, emitted⟩ := numbers.power
  rw [readFloat_of_get centre] at readFrequency
  rw [readFloat_of_get emitted] at readPower
  constructor
  · exact ⟨f, by rw [same, frequency]⟩
  · exact ⟨tx, by rw [same, power]⟩
  · exact ⟨c, (Except.ok.inj readFrequency).symm⟩
  · exact ⟨t, (Except.ok.inj readPower).symm⟩
  · exact finite_cases (reward_finite receiver rewarded)

end ShieldedSpectrumEnv
end Learning
end HorizonRic
