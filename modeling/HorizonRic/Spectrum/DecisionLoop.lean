import HorizonRic.Evidence.Append
import HorizonRic.Shield.MinimalChange
import HorizonRic.Shield.Signing
import HorizonRic.Spectrum.LocalTraining

/-!
`spectrum/pipeline.py`: a decision of the learned policy becomes a carrier, the Shield makes
it legal, and the evidence store records it. The policy may be any table.
-/
namespace HorizonRic.Spectrum
open Py Evidence

/-- The channels tile the band in equal parts. -/
structure ChannelPlan where
  bandLoHz : Number
  bandHiHz : Number
  nChannels : Int
  carrierBwHz : Number

def ChannelPlan.channelCenterHz (plan : ChannelPlan) (channel : ℕ) : Except PyErr Number := do
  let subW ← Number.div (plan.bandHiHz - plan.bandLoHz) (.fin plan.nChannels)
  .ok (plan.bandLoHz + subW * .fin (channel + 1 / 2))

structure DSADecisionConfig where
  bandLoHz : Number := .fin 3400000000
  bandHiHz : Number := .fin 3500000000
  carrierBwHz : Number := .fin 20000000
  maxEirpDBm : Number := .fin 33
  antennaGainDBi : Number := .fin 6
  rappInstanceId : String := "dsa-fed-rapp-1"

def decisionModelVersions (method : String) : ModelVersions where
  encoder := "dsa-tabular-q-1"
  riskHeads := "n/a"
  dyna := "dsa-gilbert-elliott-1"
  policy := "fed-dsa-" ++ method
  constraintLayer := "shield-terrestrial-1"
  rapp := "horizon-dsa-1"

/-- The action that asks for a carrier; an idle decision does not emit it. -/
def carrierPayload (cfg : DSADecisionConfig) (plan : ChannelPlan) (channel : ℕ) (emit : Bool)
    (frequencyHz requestedTxPowerDBm : Number) : Action :=
  [("block", .str "fed_dsa_policy"), ("dsa_channel", .int channel), ("emit", .bool emit),
    ("frequency_hz", .float frequencyHz), ("bandwidth_hz", .float plan.carrierBwHz),
    ("tx_power_dBm", .float requestedTxPowerDBm), ("antenna_gain_dBi", .float cfg.antennaGainDBi)]

def actionFromPolicy (q : Erasure.QTable) (obs : ℕ) (plan : ChannelPlan)
    (cfg : DSADecisionConfig) (requestedTxPowerDBm : Number) : Except PyErr Action := do
  let a ← greedyAction q obs
  if plan.nChannels ≤ a then
    let middle := plan.bandLoHz + (plan.bandHiHz - plan.bandLoHz).divBy 2
    .ok (carrierPayload cfg plan a false middle requestedTxPowerDBm)
  else do
    let center ← plan.channelCenterHz a
    .ok (carrierPayload cfg plan a true center requestedTxPowerDBm)

/-- Keyword arguments of a decision, the clock readings, and the tenant in scope. -/
structure DecisionArgs where
  method : String := "krum"
  requestedTxPowerDBm : Number := .fin 30
  decisionId : String := "dsa-0"
  rngSeed : Int := 0
  modelProvenance : Option (Dict Value) := none
  issuedAt : String
  timestamp : String
  tenant : Option String := none

structure DSADecisionResult where
  safeAction : Action
  certificate : SafetyCertificate
  record : DecisionRecord
  chainHash : Option String

/-- A severity that is not one of the two is recorded as hard. -/
def decisionCorrection (c : ConstraintViolation) : ConstraintCorrection where
  constraintId := c.constraintId
  severity := if c.severity = "soft" then .soft else .hard
  marginDb := c.marginDB
  message := c.message

section
variable (platform : Platform)

def decisionStateHash (obs : ℕ) (action : Action) : Except PyErr String := do
  let payload ← Json.dumps platform.py Json.compact
    (.dict [("obs", .int obs), ("channel", action.getD "dsa_channel" .null)])
  .ok (platform.sha256 (utf8 payload)).hex

def decisionShield (cfg : DSADecisionConfig) : TerrestrialParams where
  bandLoHz := cfg.bandLoHz
  bandHiHz := cfg.bandHiHz
  maxEirpDBm := cfg.maxEirpDBm
  liConstraint := none
  maxPaprDB := .fin (17 / 2)
  neuralRxToleranceDB := .fin 1
  guardBandHz := .fin 0

def decisionRecord (cfg : DSADecisionConfig) (args : DecisionArgs) (stateHash : String)
    (disp : ShieldDisposition) : DecisionRecord where
  decisionId := args.decisionId
  timestamp := args.timestamp
  rappInstanceId := cfg.rappInstanceId
  stateHash := stateHash
  chosenAction := disp.safeAction.set "safety_certificate" (.dict disp.certificate.toDict)
  predictedOutcomeChosen :=
    { slaRisk30s := .fin 0, slaRisk1min := .fin 0, slaRisk5min := .fin 0
      constraintViolations := disp.certificate.violatedIds }
  rejectedAlternatives := []
  constraintCorrections := disp.certificate.corrections.map decisionCorrection
  modelVersions := decisionModelVersions args.method
  randomSeed := some args.rngSeed

/-- The channels are the actions but the last. -/
def planOf (cfg : DSADecisionConfig) (q : Erasure.QTable) : ChannelPlan :=
  ⟨cfg.bandLoHz, cfg.bandHiHz, ((q.headD []).length : Int) - 1, cfg.carrierBwHz⟩

/-- The result, and the evidence store after it if there is one. -/
def decideAndRecord (q : Erasure.QTable) (obs : ℕ) (cfg : DSADecisionConfig)
    (shield : Option Shield) (args : DecisionArgs) (evidence : Option EvidenceStore) :
    Except PyErr (DSADecisionResult × Option EvidenceStore) := do
  let shield := shield.getD (defaultTerrestrialShield platform.py (decisionShield cfg))
  let proposed ← actionFromPolicy q obs (planOf cfg q) cfg args.requestedTxPowerDBm
  let disp ← shield.dispose platform.py proposed none
    ⟨args.decisionId, some args.rngSeed, "near_rt", args.modelProvenance, args.issuedAt⟩
  let stateHash ← decisionStateHash platform obs proposed
  let record := decisionRecord cfg args stateHash disp
  match evidence with
  | none => .ok (⟨disp.safeAction, disp.certificate, record, none⟩, none)
  | some store => do
    let (after, chainHash) ← store.append platform args.tenant record
    .ok (⟨disp.safeAction, disp.certificate, record, some chainHash⟩, some after)

end
/-! What a decision asks for. -/

/-- Finite numbers, and a carrier that fits a band of positive width. -/
structure Deployable (cfg : DSADecisionConfig) (lo hi bw cap gain : ℚ) : Prop where
  bandLo : cfg.bandLoHz = .fin lo
  bandHi : cfg.bandHiHz = .fin hi
  carrierBw : cfg.carrierBwHz = .fin bw
  maxEirp : cfg.maxEirpDBm = .fin cap
  antennaGain : cfg.antennaGainDBi = .fin gain
  nonneg : 0 ≤ lo
  wide : 0 < bw
  fits : bw ≤ hi - lo

/-- A table with a row for the observation, as wide as the first one. No array is too large
    for its indices to be printed. -/
structure Observed (q : Erasure.QTable) (obs : ℕ) : Prop where
  inside : obs < q.length
  width : (q.getD obs []).length = (q.headD []).length
  nonempty : q.getD obs [] ≠ []
  rows : q.length ≤ intStrLimit
  columns : (q.headD []).length ≤ intStrLimit

/-- The centre of one of `n` equal parts of the band. -/
def subBandCentre (lo hi : ℚ) (n : Int) (channel : ℕ) : ℚ :=
  lo + (hi - lo) / n * (channel + 1 / 2)

section
variable {cfg : DSADecisionConfig} {lo hi bw cap gain tx : ℚ} {q : Erasure.QTable} {obs : ℕ}
  {py : Interpreter}

theorem exists_greatest {row : List Number} (nonempty : row ≠ [])
    (numbers : ∀ x ∈ row, x.isNan = false) : ∃ m ∈ row, ∀ y ∈ row, Number.le y m = true := by
  induction row with
  | nil => contradiction
  | cons x rest ih =>
    have reflexive : ∀ z : Number, z.isNan = false → Number.le z z = true := by
      intro z number
      cases z <;> simp_all [Number.isNan, Number.le]
    have total : ∀ y z : Number, y.isNan = false → z.isNan = false →
        Number.le y z = true ∨ Number.le z y = true := by
      intro y z left right
      cases y <;> cases z <;> grind [Number.isNan, Number.le]
    have number := numbers x List.mem_cons_self
    have others := fun y member => numbers y (List.mem_cons_of_mem x member)
    by_cases alone : rest = []
    · subst alone
      exact ⟨x, List.mem_cons_self, by simpa using reflexive x number⟩
    · obtain ⟨m, among, greatest⟩ := ih alone others
      rcases total x m number (others m among) with below | above
      · refine ⟨m, List.mem_cons_of_mem x among, ?_⟩
        intro y member
        rcases List.mem_cons.mp member with rfl | later
        · exact below
        · exact greatest y later
      · refine ⟨x, List.mem_cons_self, ?_⟩
        intro y member
        rcases List.mem_cons.mp member with rfl | later
        · exact reflexive y number
        · exact Number.le_trans (greatest y later) above

theorem exists_argmax {row : List Number} (nonempty : row ≠ []) :
    ∃ a, argmax row = .ok a ∧ a < row.length := by
  refine ⟨_, if_neg nonempty, ?_⟩
  apply List.findIdx_lt_length_of_exists
  by_cases invalid : ∃ x ∈ row, x.isNan = true
  · obtain ⟨x, member, nan⟩ := invalid
    exact ⟨x, member, by rw [nan, Bool.true_or]⟩
  · obtain ⟨m, among, greatest⟩ := exists_greatest nonempty
      (fun x member => by simpa using fun nan => invalid ⟨x, member, nan⟩)
    exact ⟨m, among, by rw [List.all_eq_true.mpr greatest, Bool.or_true]⟩

/-- A policy always has an action, and it is a channel or the idle one. -/
theorem greedyAction_total (observed : Observed q obs) :
    ∃ a, greedyAction q obs = .ok a ∧ a < (q.headD []).length := by
  have inside := observed.inside
  obtain ⟨a, found, below⟩ := exists_argmax observed.nonempty
  refine ⟨a, ?_, observed.width ▸ below⟩
  have placed : Erasure.axisIndex q.length obs = .ok obs := by
    rw [Erasure.axisIndex, if_pos (by omega)]
    rfl
  rw [greedyAction, placed, ok_bind, found]

theorem Deployable.mask (deployable : Deployable cfg lo hi bw cap gain) :
    (decisionShield cfg).mask.usableLo = .fin lo ∧ (decisionShield cfg).mask.usableHi = .fin hi := by
  constructor
  · change cfg.bandLoHz + .fin 0 = _
    rw [deployable.bandLo, Number.fin_add, add_zero]
  · change cfg.bandHiHz - .fin 0 = _
    rw [deployable.bandHi, Number.fin_sub, sub_zero]

theorem Deployable.usable (deployable : Deployable cfg lo hi bw cap gain) :
    (decisionShield cfg).mask.Usable bw := by
  obtain ⟨lower, upper⟩ := deployable.mask
  have wide := deployable.wide
  have fits := deployable.fits
  constructor
  · rw [lower, Number.le_fin, decide_eq_true_eq]
    exact deployable.nonneg
  · rw [lower, upper, Number.lt_fin, decide_eq_true_eq]
    linarith
  · rw [lower, upper, Number.fin_sub, Number.le_fin, decide_eq_true_eq]
    exact fits

theorem Deployable.legalCentre_iff (deployable : Deployable cfg lo hi bw cap gain) (c : ℚ) :
    (decisionShield cfg).mask.LegalCentre bw c ↔ lo ≤ c - bw / 2 ∧ c + bw / 2 ≤ hi := by
  obtain ⟨lower, upper⟩ := deployable.mask
  rw [SpectralMask.LegalCentre, lower, upper, Number.le_fin, Number.le_fin, decide_eq_true_eq,
    decide_eq_true_eq]

/-- A sub-band as wide as the carrier holds it. -/
theorem subBandCentre_legal (deployable : Deployable cfg lo hi bw cap gain) {n : Int} {a : ℕ}
    (channel : (a : Int) < n) (room : n * bw ≤ hi - lo) :
    (decisionShield cfg).mask.LegalCentre bw (subBandCentre lo hi n a) := by
  rw [deployable.legalCentre_iff, subBandCentre]
  have wide := deployable.wide
  have parts : (0 : ℚ) < n := by exact_mod_cast (show (0 : Int) < n by omega)
  have index : (0 : ℚ) ≤ a := Nat.cast_nonneg a
  have last : (a : ℚ) + 1 ≤ n := by exact_mod_cast channel
  have share : bw ≤ (hi - lo) / n := by
    rw [le_div_iff₀ parts]
    linarith
  have whole : (hi - lo) / n * n = hi - lo := div_mul_cancel₀ _ parts.ne'
  have before : 0 ≤ (hi - lo) / n * a := mul_nonneg (by linarith) index
  have after : (hi - lo) / n * (a + 1) ≤ (hi - lo) / n * n :=
    mul_le_mul_of_nonneg_left last (by linarith)
  constructor
  · linarith
  · linarith

/-! The proposal. -/

theorem payload_domain {plan : ChannelPlan} {channel : ℕ} {emit : Bool} {f : ℚ}
    (gains : cfg.antennaGainDBi = .fin gain) (carrier : plan.carrierBwHz = .fin bw)
    (wide : 0 < bw) (positive : 0 < f) :
    NumericSanity.Domain py (carrierPayload cfg plan channel emit (.fin f) (.fin tx)) := by
  constructor
  · intro key member
    simp only [List.mem_cons, List.not_mem_nil, or_false] at member
    rcases member with rfl | rfl | rfl
    · simp [NumericSanity.Meets, carrierPayload, Dict.getD, NumericSanity.numberSatisfies,
        NumericSanity.number, Value.toFloat, NumericSanity.demand, positive]
    · simp [NumericSanity.Meets, carrierPayload, Dict.getD, NumericSanity.numberSatisfies,
        NumericSanity.number, Value.toFloat, NumericSanity.demand, carrier, wide]
    · simp [NumericSanity.Meets, carrierPayload, Dict.getD, NumericSanity.numberSatisfies,
        NumericSanity.number, Value.toFloat, NumericSanity.demand]
  · intro key member present
    simp only [NumericSanity.optionalKeys, List.mem_cons, List.not_mem_nil, or_false] at member
    rcases member with rfl | rfl | rfl | rfl | rfl | rfl | rfl
    · simp [NumericSanity.Meets, carrierPayload, Dict.getD, NumericSanity.numberSatisfies,
        NumericSanity.number, Value.toFloat, NumericSanity.demand, gains]
    all_goals cases present
  · intro ntn
    cases ntn

theorem payload_proposed (deployable : Deployable cfg lo hi bw cap gain) {plan : ChannelPlan}
    (carrier : plan.carrierBwHz = .fin bw) {channel : ℕ} {emit : Bool} {f : ℚ}
    (positive : 0 < f) :
    Proposed py (decisionShield cfg).mask
      (carrierPayload cfg plan channel emit (.fin f) (.fin tx)) f bw tx gain where
  domain := payload_domain deployable.antennaGain carrier deployable.wide positive
  order v present := by cases present
  printable := rfl
  unblocked := rfl
  frequency := rfl
  bandwidth := by
    change Except.ok plan.carrierBwHz = _
    rw [carrier]
  power := rfl
  antenna := by
    change Except.ok cfg.antennaGainDBi = _
    rw [deployable.antennaGain]
  usable := deployable.usable

/-- What the Shield makes of a payload. -/
structure Settled (py : Interpreter) (cfg : DSADecisionConfig) (lo hi bw cap gain tx f : ℚ)
    (payload : Action) (d : ShieldDisposition) : Prop where
  certified : d.certificate.safe = true
  legal : TerrestrialLegal py (decisionShield cfg) [] d.safeAction
  kept : Dict.SameOutside settledKeys payload d.safeAction
  frequency : ∃ c, floatField py d.safeAction "frequency_hz" zero = .ok (.fin c) ∧
    lo ≤ c - bw / 2 ∧ c + bw / 2 ≤ hi ∧ ((decisionShield cfg).mask.LegalCentre bw f → c = f)
  power : floatField py d.safeAction "tx_power_dBm" zero = .ok (.fin (min tx (cap - gain)))

theorem payload_settled (deployable : Deployable cfg lo hi bw cap gain) {plan : ChannelPlan}
    (carrier : plan.carrierBwHz = .fin bw) {channel : ℕ} {emit : Bool} {f : ℚ}
    (positive : 0 < f) (args : DisposeArgs) :
    ∃ d, (defaultTerrestrialShield py (decisionShield cfg)).dispose py
        (carrierPayload cfg plan channel emit (.fin f) (.fin tx)) none args = .ok d ∧
      Settled py cfg lo hi bw cap gain tx f
        (carrierPayload cfg plan channel emit (.fin f) (.fin tx)) d := by
  have proposed : Proposed py (decisionShield cfg).mask
      (carrierPayload cfg plan channel emit (.fin f) (.fin tx)) f bw tx gain :=
    payload_proposed deployable carrier positive
  have layered : Layered (decisionShield cfg).mask (decisionShield cfg).chain :=
    terrestrial_layered rfl
      (show Number.le (.fin 0) (.fin (17 / 2)) = true by norm_num [Number.le_fin])
  have reachable : ∀ k ∈ (decisionShield cfg).chain,
      k.Reachable (carrierPayload cfg plan channel emit (.fin f) (.fin tx)) := by
    have attainable : Attainable cfg.maxEirpDBm := by
      rw [deployable.maxEirp]
      exact ⟨(fun impossible => nomatch impossible), (fun impossible => nomatch impossible)⟩
    simp [decisionShield, TerrestrialParams.chain, InvariantClass.ofIntercept,
      InvariantClass.Reachable, attainable]
  obtain ⟨d, disposed, minimal⟩ := layered.dispose_settled
    (terrestrial_invariants py (decisionShield cfg)) (show (8 : Nat) ≠ 0 by decide) proposed
    (show Measured py (contextOf none) from Or.inl rfl) reachable args
  have verdict := verdict_of_dispose py disposed fun safe free chain =>
    terrestrialLegal_of_chain py chain free
  obtain ⟨f', bw', c, read, width, moved, nearest⟩ := minimal.frequency
  rw [proposed.frequency] at read
  rw [proposed.bandwidth] at width
  cases read
  cases width
  obtain ⟨low, high⟩ := (deployable.legalCentre_iff c).mp nearest.legal
  obtain ⟨tx', t, limits, asked, given, computed, least⟩ := minimal.power
  rw [proposed.power] at asked
  cases asked
  have antenna : floatField py d.safeAction "antenna_gain_dBi" zero = .ok (.fin gain) := by
    rw [floatField, minimal.kept.getD (by decide)]
    exact proposed.antenna
  have limit : limits = [.fin (cap - gain)] := by
    simp only [decisionShield, TerrestrialParams.chain, InvariantClass.ofIntercept,
      List.append_nil, List.cons_append, List.nil_append, powerLimits, antenna, ok_bind,
      deployable.maxEirp, Number.fin_sub] at computed
    exact (Except.ok.inj computed).symm
  rw [limit, List.foldl_cons, List.foldl_nil, Number.min_fin] at least
  refine ⟨d, disposed, minimal.safe, verdict.certified minimal.safe, minimal.kept, ?_, ?_⟩
  · exact ⟨c, moved, low, high, nearest.eq_of_legal⟩
  · rw [given, least]

/-! The decision. -/

/-- The action of the policy, its carrier in the band at no more than the permitted power, and
    a record of what was corrected. A channel with room for the carrier is used as it is. -/
structure LegalDecision (py : Interpreter) (cfg : DSADecisionConfig) (lo hi bw cap gain tx : ℚ)
    (q : Erasure.QTable) (obs : ℕ) (result : DSADecisionResult) : Prop where
  certified : result.certificate.safe = true
  legal : TerrestrialLegal py (decisionShield cfg) [] result.safeAction
  action : ∃ a, greedyAction q obs = .ok a ∧
    Dict.get? "dsa_channel" result.safeAction = some (.int a) ∧
    Dict.get? "emit" result.safeAction =
      some (.bool (decide ((a : Int) < (planOf cfg q).nChannels))) ∧
    ∃ c, floatField py result.safeAction "frequency_hz" zero = .ok (.fin c) ∧
      lo ≤ c - bw / 2 ∧ c + bw / 2 ≤ hi ∧
      ((a : Int) < (planOf cfg q).nChannels → (planOf cfg q).nChannels * bw ≤ hi - lo →
        c = subBandCentre lo hi (planOf cfg q).nChannels a)
  power : floatField py result.safeAction "tx_power_dBm" zero =
    .ok (.fin (min tx (cap - gain)))
  recorded : result.record.chosenAction =
    result.safeAction.set "safety_certificate" (.dict result.certificate.toDict)
  corrected : result.record.constraintCorrections.map ConstraintCorrection.constraintId =
    result.certificate.corrections.map ConstraintViolation.constraintId

theorem subBandCentre_pos (deployable : Deployable cfg lo hi bw cap gain) {n : Int} {a : ℕ}
    (channel : (a : Int) < n) : 0 < subBandCentre lo hi n a := by
  have nonneg := deployable.nonneg
  have wide := deployable.wide
  have fits := deployable.fits
  have parts : (0 : ℚ) < n := by exact_mod_cast (show (0 : Int) < n by omega)
  have index : (0 : ℚ) ≤ a := Nat.cast_nonneg a
  have share : 0 < (hi - lo) / n := div_pos (by linarith) parts
  have offset : 0 < (hi - lo) / n * (a + 1 / 2) := mul_pos share (by linarith)
  rw [subBandCentre]
  linarith

/-- The policy's action asks for a positive frequency, on a channel for its centre. -/
theorem actionFromPolicy_eq (deployable : Deployable cfg lo hi bw cap gain)
    (observed : Observed q obs) (requested : Number) :
    ∃ a f, greedyAction q obs = .ok a ∧ a < (q.headD []).length ∧ 0 < f ∧
      actionFromPolicy q obs (planOf cfg q) cfg requested =
        .ok (carrierPayload cfg (planOf cfg q) a (decide ((a : Int) < (planOf cfg q).nChannels))
          (.fin f) requested) ∧
      ((a : Int) < (planOf cfg q).nChannels → f = subBandCentre lo hi (planOf cfg q).nChannels a) := by
  obtain ⟨a, chosen, below⟩ := greedyAction_total observed
  have bandLo : (planOf cfg q).bandLoHz = .fin lo := deployable.bandLo
  have bandHi : (planOf cfg q).bandHiHz = .fin hi := deployable.bandHi
  have nonneg := deployable.nonneg
  have wide := deployable.wide
  have fits := deployable.fits
  by_cases channel : (a : Int) < (planOf cfg q).nChannels
  · refine ⟨a, subBandCentre lo hi (planOf cfg q).nChannels a, chosen, below,
      subBandCentre_pos deployable channel, ?_, fun _ => rfl⟩
    have parts : ((planOf cfg q).nChannels : ℚ) ≠ 0 := by
      exact_mod_cast (show (planOf cfg q).nChannels ≠ 0 by omega)
    rw [actionFromPolicy, chosen, ok_bind, if_neg (not_le.mpr channel), ChannelPlan.channelCenterHz,
      bandLo, bandHi, Number.fin_sub, Number.div, if_neg parts, ok_bind, Number.fin_mul, Number.fin_add, ok_bind, decide_eq_true channel]
    rfl
  · refine ⟨a, lo + (hi - lo) / 2, chosen, below, by linarith, ?_, fun inside => absurd inside channel⟩
    rw [actionFromPolicy, chosen, ok_bind, if_pos (not_lt.mp channel), bandLo, bandHi,
      Number.fin_sub, Number.divBy_fin, decide_eq_false channel]
    rfl

end

theorem decisionStateHash_isOk (platform : Platform) {q : Erasure.QTable} {obs : ℕ}
    (observed : Observed q obs) (action : Action) {a : ℕ}
    (channel : Dict.get? "dsa_channel" action = some (.int a)) (below : a < (q.headD []).length) :
    ∃ stateHash, decisionStateHash platform obs action = .ok stateHash := by
  have inside := observed.inside
  have rows := observed.rows
  have columns := observed.columns
  have prints : (Value.dict [("obs", .int obs), ("channel", .int a)]).digitsOk = true := by
    simp only [Value.digitsOk, Value.digitsOkItems, intDigitsOk, Bool.and_true,
      Bool.and_eq_true, decide_eq_true_eq, Int.natAbs_natCast]
    omega
  rw [decisionStateHash, Dict.getD, channel, Option.getD_some, Json.dumps, if_pos prints, ok_bind]
  exact ⟨_, rfl⟩

/-- A table that a poisoner filled, on two channels of the default band. -/
def poisonedTable : Erasure.QTable :=
  [[.fin 0, .fin 0, .fin 0], [.nan, .inf false, .fin 50], [.fin 0, .inf true, .fin (-1)],
    [.fin 50, .fin 0, .fin 0]]

end HorizonRic.Spectrum
