import HorizonRic.Evidence.Store
import HorizonRic.Policy.EmitGuards
import HorizonRic.Shield.Shield

/-!
`learning/shield_env.py`: the spectrum environment behind the Shield. A step disposes
the proposed action, executes what comes back, and records both actions.
-/
namespace HorizonRic.Learning

open Py Evidence Policy

def nSubbands : Nat := 6
def antennaGainDbi : Number := .fin 6
def noiseFigureDb : Number := .fin 7

/-- `numpy.log10`. -/
def npLog10 (py : Interpreter) : Number → Number
  | .fin q => if 0 < q then .fin (py.log10 q) else if q = 0 then .inf true else .nan
  | .inf false => .inf false
  | _ => .nan

def numberAbs : Number → Number
  | .nan => .nan
  | .inf _ => .inf false
  | .fin q => .fin |q|

/-- `numpy.argmin`: the first minimum, or the first NaN if there is one. -/
def argmin (xs : Fin (n + 1) → Number) : Fin (n + 1) :=
  (List.finRange (n + 1)).foldl
    (fun best i =>
      if (xs best).isNan then best else if Number.le (xs best) (xs i) then best else i) 0

/-- `numpy.mean` of Booleans. -/
def meanOf (flags : List Bool) : Number :=
  if flags = [] then .nan else .fin (flags.countP id / flags.length)

structure SpectrumAction where
  frequencyHz : Number
  txPowerDbm : Number

def SpectrumAction.eirpDbm (a : SpectrumAction) : Number := a.txPowerDbm + antennaGainDbi

structure StepResult where
  proposed : SpectrumAction
  executed : SpectrumAction
  reward : Number
  counterfactualReward : Option Number
  projected : Bool
  guardRefused : Bool
  illegalWithoutShield : Bool

/-- Centre of a subband of 3.45 to 3.55 GHz. -/
def subbandCenterHz (subband : Fin nSubbands) : Number :=
  .fin (3450000000 + (subband.val + 1 / 2) * (100000000 / nSubbands))

/-- The keyword arguments of `step`, the two clock readings, and the active tenant. -/
structure StepArgs where
  decisionId : String
  rappInstanceId : String := "shield-feedback"
  policyLabel : String := "learner"
  issuedAt : String
  timestamp : String
  tenant : Option String := none

structure ShieldedSpectrumEnv where
  gains : List (Fin nSubbands → Number)
  bandLoHz : Number := .fin 3450000000
  bandHiHz : Number := .fin 3550000000
  maxEirpDbm : Number := .fin 33
  bandwidthHz : Number := .fin 20000000
  sinrThresholdDb : Number := .fin 0

namespace ShieldedSpectrumEnv
variable (env : ShieldedSpectrumEnv)

def noiseDbm (py : Interpreter) : Number :=
  .fin (-174) + .fin 10 * npLog10 py env.bandwidthHz + noiseFigureDb

/-- `default_terrestrial_shield` with its defaults. -/
def params : TerrestrialParams where
  bandLoHz := env.bandLoHz
  bandHiHz := env.bandHiHz
  maxEirpDBm := env.maxEirpDbm
  liConstraint := none
  maxPaprDB := .fin (17 / 2)
  neuralRxToleranceDB := .fin 1
  guardBandHz := .fin 0

def shield (py : Interpreter) : Shield := defaultTerrestrialShield py env.params

/-- The subband whose centre is nearest; none out of the band. -/
def subbandFor (frequencyHz : Number) : Option (Fin nSubbands) :=
  if Number.lt frequencyHz env.bandLoHz || Number.lt env.bandHiHz frequencyHz then none
  else some (argmin fun b => numberAbs (subbandCenterHz b - frequencyHz))

/-- Share of the receivers whose SINR clears the threshold. -/
def reward (py : Interpreter) (action : SpectrumAction) : Option Number :=
  match env.subbandFor action.frequencyHz with
  | none => none
  | some subband =>
    let sinr := env.gains.map fun row => action.eirpDbm + row subband - env.noiseDbm py
    some (meanOf (sinr.map fun x => Number.le env.sinrThresholdDb x))

def actionPayload (action : SpectrumAction) : Action :=
  [("block", .str "policy_emit"), ("policy_type", .str "horizon.spectrum.reservation"),
    ("frequency_hz", .float action.frequencyHz), ("bandwidth_hz", .float env.bandwidthHz),
    ("tx_power_dBm", .float action.txPowerDbm), ("antenna_gain_dBi", .float antennaGainDbi)]

def isFeasible (py : Interpreter) (action : SpectrumAction) : Except PyErr Bool :=
  (env.shield py).isFeasible (env.actionPayload action) none

def disposeArgs (args : StepArgs) : DisposeArgs :=
  ⟨args.decisionId, none, "non_rt", none, args.issuedAt⟩

/-- `float(safe[key])`. -/
def readFloat (py : Interpreter) (safe : Action) (key : String) : Except PyErr Number :=
  match Dict.get? key safe with
  | some v => v.toFloat py
  | none => .error .keyError

/-- `abs(executed.frequency_hz - proposed.frequency_hz) > 1.0 or executed.eirp_dbm <
    proposed.eirp_dbm - 1e-9`. -/
def moved (proposed executed : SpectrumAction) : Bool :=
  Number.lt (.fin 1) (numberAbs (executed.frequencyHz - proposed.frequencyHz)) ||
    Number.lt executed.eirpDbm (proposed.eirpDbm - .fin (1 / 10 ^ 9))

def illegal (proposed : SpectrumAction) : Bool :=
  Number.lt (env.maxEirpDbm + .fin (1 / 10 ^ 9)) proposed.eirpDbm ||
    Number.lt proposed.frequencyHz env.bandLoHz || Number.lt env.bandHiHz proposed.frequencyHz

/-- The record of a step. -/
def stepRecord (args : StepArgs) (result : StepResult) : DecisionRecord :=
  let frequencyText := fmtFixed 0 result.proposed.frequencyHz
  { decisionId := args.decisionId
    timestamp := args.timestamp
    rappInstanceId := args.rappInstanceId
    stateHash := s!"freq-{frequencyText}"
    chosenAction :=
      [("label", .str args.policyLabel), ("policy_type", .str "horizon.spectrum.reservation"),
        ("requested_frequency_hz", .float result.proposed.frequencyHz),
        ("requested_tx_power_dBm", .float result.proposed.txPowerDbm),
        ("safe_frequency_hz", .float result.executed.frequencyHz),
        ("safe_tx_power_dBm", .float result.executed.txPowerDbm),
        ("reward", .float result.reward), ("projected", .bool result.projected),
        ("guard_refused", .bool result.guardRefused)]
    predictedOutcomeChosen := ⟨.fin (1 / 10), .fin (1 / 10), .fin (1 / 10), [], .fin 0, .fin 0, []⟩
    rejectedAlternatives := []
    modelVersions :=
      ⟨"none", "shield-feedback", "none", args.policyLabel, "terrestrial-shield", "0.2.0"⟩ }

/-- What a step makes of the disposition of its proposal. -/
def execute (py : Interpreter) (proposed : SpectrumAction) (disposition : ShieldDisposition) :
    Except PyErr StepResult := do
  let certificate := disposition.certificate
  let guardFails := runGuardChain py (some certificate) true (.fin 1) [] (.fin 100)
  let frequency ← readFloat py disposition.safeAction "frequency_hz"
  let power ← readFloat py disposition.safeAction "tx_power_dBm"
  let executed : SpectrumAction := ⟨frequency, power⟩
  match env.reward py executed with
  | none => .error (.other "RuntimeError")
  | some realised =>
    .ok ⟨proposed, executed, realised, env.reward py proposed, moved proposed executed,
      !guardFails.isEmpty, env.illegal proposed⟩

/-- `store.append` of the record of the step, if there is a store. -/
def record (platform : Platform) (args : StepArgs) (result : StepResult) :
    Option EvidenceStore → Except PyErr (Option EvidenceStore)
  | none => .ok none
  | some store => do
    let (after, _) ← store.append platform args.tenant (stepRecord args result)
    .ok (some after)

def step (platform : Platform) (proposed : SpectrumAction) (args : StepArgs)
    (store : Option EvidenceStore) : Except PyErr (StepResult × Option EvidenceStore) := do
  let py := platform.py
  let disposition ←
    (env.shield py).dispose py (env.actionPayload proposed) (some []) (disposeArgs args)
  let result ← env.execute py proposed disposition
  let after ← record platform args result store
  .ok (result, after)

end ShieldedSpectrumEnv
end HorizonRic.Learning
