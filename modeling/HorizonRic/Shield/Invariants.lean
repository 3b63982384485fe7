import HorizonRic.Python.Format
import HorizonRic.Policy.LiConstraint

/-!
Invariants enforced by the Decision Safety Shield. Each one evaluates an
action under a context and projects an infeasible action toward the safe set.
Both may raise on a malformed payload; the Shield decides what a raise means.
-/
namespace HorizonRic
open Py

abbrev Action := Dict Value
abbrev Context := Dict Value

def fallbackKey : String := "shield_fallback_to"
def emitBlockedKey : String := "emit_blocked"

/-- `bool(action.get("emit_blocked"))`. -/
def isBlocked (action : Action) : Bool := (action.getD emitBlockedKey .null).truthy

def block (action : Action) : Action := action.set emitBlockedKey (.bool true)

structure Invariant where
  id : String
  evaluate : Action → Context → Except PyErr InvariantCheck
  project : Action → Context → Except PyErr (Action × List ConstraintViolation)

def zero : Value := .float (.fin 0)

section
variable (py : Interpreter)

/-- `float(action.get(key, default))`. -/
def floatField (action : Action) (key : String) (default : Value) : Except PyErr Number :=
  (action.getD key default).toFloat py

namespace NumericSanity

def id : String := "numeric_domain_sanity"

/-- The finite float of a value, if it has one. -/
def number (v : Value) : Option ℚ :=
  match v.toFloat py with
  | .ok (.fin q) => some q
  | _ => none

def numberSatisfies (v : Value) (ok : ℚ → Bool) : Bool :=
  match number py v with
  | some q => ok q
  | none => false

def problemUnless (ok : Bool) (message : String) : List String := if ok then [] else [message]

def required (action : Action) (field : String) (ok : ℚ → Bool) (message : String) :
    List String :=
  problemUnless (numberSatisfies py (action.getD field .null) ok) message

def optional (action : Action) (field : String) (ok : ℚ → Bool) (message : String) :
    List String :=
  if action.has field then required py action field ok message else []

def problems (action : Action) : List String :=
  required py action "frequency_hz" (fun q => decide (0 < q))
    "frequency_hz must be finite and > 0" ++
  required py action "bandwidth_hz" (fun q => decide (0 < q))
    "bandwidth_hz must be finite and > 0" ++
  required py action "tx_power_dBm" (fun _ => true) "tx_power_dBm must be finite" ++
  ["antenna_gain_dBi", "sat_antenna_gain_dBi"].flatMap (fun field =>
    optional py action field (fun _ => true) s!"{field} must be finite") ++
  ["predicted_tbler", "baseline_tbler", "demap_confidence"].flatMap (fun field =>
    optional py action field (fun q => decide (0 ≤ q) && decide (q ≤ 1))
      s!"{field} must be finite and in [0, 1]") ++
  optional py action "papr_dB" (fun q => decide (0 ≤ q)) "papr_dB must be finite and >= 0" ++
  optional py action "constellation_order"
    (fun q => decide (0 < q) && (Number.fin q).isInteger)
    "constellation_order must be a positive integer" ++
  (if (action.getD "ntn" (.bool false)).truthy then
    required py action "slant_range_m" (fun q => decide (0 < q))
      "slant_range_m must be finite and > 0 for NTN"
  else [])

def evaluate (action : Action) (_context : Context) : Except PyErr InvariantCheck :=
  let found := problems py action
  .ok ⟨id, found.isEmpty, none, "domain",
    if found.isEmpty then "numeric domains valid" else "; ".intercalate found⟩

def project (action : Action) (_context : Context) :
    Except PyErr (Action × List ConstraintViolation) :=
  let found := problems py action
  if found.isEmpty then .ok (action, [])
  else .ok (block action, [⟨id, "hard", none,
    "malformed/non-physical action blocked: " ++ "; ".intercalate found⟩])

def invariant : Invariant := ⟨id, evaluate py, project py⟩

end NumericSanity

/-- Carrier inside the licensed channel, a guard band away from each edge. -/
structure SpectralMask where
  bandLoHz : Number
  bandHiHz : Number
  guardBandHz : Number

namespace SpectralMask
variable (mask : SpectralMask)

def id : String := "spectral_mask_ts38104"

def usableLo : Number := mask.bandLoHz + mask.guardBandHz
def usableHi : Number := mask.bandHiHz - mask.guardBandHz

def edges (action : Action) : Except PyErr (Number × Number) := do
  let f ← floatField py action "frequency_hz" zero
  let bw ← floatField py action "bandwidth_hz" zero
  .ok (f - bw.divBy 2, f + bw.divBy 2)

def megahertz (x : Number) : String := fmtFixed 3 (x.divBy (10 ^ 6))

def evaluate (action : Action) (_context : Context) : Except PyErr InvariantCheck := do
  let (lo, hi) ← edges py action
  let margin := Number.min (lo - mask.usableLo) (mask.usableHi - hi)
  let loText := megahertz lo
  let hiText := megahertz hi
  let bandLo := megahertz mask.bandLoHz
  let bandHi := megahertz mask.bandHiHz
  let guardText := megahertz mask.guardBandHz
  .ok ⟨id, Number.le (.fin 0) margin, some margin, "Hz",
    s!"occupied [{loText},{hiText}] MHz vs band [{bandLo},{bandHi}] MHz (guard {guardText} MHz)"⟩

def tooWideMessage (bw : Number) : String :=
  let bwText := megahertz bw
  let usable := megahertz (mask.usableHi - mask.usableLo)
  let guardText := megahertz mask.guardBandHz
  s!"carrier bandwidth {bwText} MHz exceeds usable channel {usable} MHz (after {guardText} " ++
  "MHz guard band); cannot place — emit blocked."

def clippedMessage (f clipped : Number) : String :=
  let before := megahertz f
  let after := megahertz clipped
  s!"centre frequency clipped {before}→{after} MHz " ++
  "to keep the carrier inside the licensed channel (with guard band)."

def project (action : Action) (_context : Context) :
    Except PyErr (Action × List ConstraintViolation) := do
  let bw ← floatField py action "bandwidth_hz" zero
  if Number.lt (mask.usableHi - mask.usableLo) bw then
    .ok (block action, [⟨id, "hard", none, mask.tooWideMessage bw⟩])
  else
    let loAllowed := mask.usableLo + bw.divBy 2
    let hiAllowed := mask.usableHi - bw.divBy 2
    let f ← floatField py action "frequency_hz" zero
    let clipped := Number.min (Number.max f loAllowed) hiAllowed
    if Number.eq clipped f then .ok (action, [])
    else .ok (action.set "frequency_hz" (.float clipped),
      [⟨id, "hard", none, clippedMessage f clipped⟩])

def invariant : Invariant := ⟨id, evaluate py mask, project py mask⟩

end SpectralMask

/-- Ceiling on conducted power plus antenna gain. -/
structure MaxEirp where
  maxEirpDBm : Number

namespace MaxEirp
variable (cap : MaxEirp)

def id : String := "max_eirp"

def eirp (action : Action) : Except PyErr Number := do
  let tx ← floatField py action "tx_power_dBm" zero
  let gain ← floatField py action "antenna_gain_dBi" zero
  .ok (tx + gain)

def evaluate (action : Action) (_context : Context) : Except PyErr InvariantCheck := do
  let e ← eirp py action
  let margin := cap.maxEirpDBm - e
  let eirpText := fmtFixed 2 e
  let ceiling := fmtFixed 2 cap.maxEirpDBm
  .ok ⟨id, Number.le (.fin 0) margin, some margin, "dB",
    s!"EIRP {eirpText} dBm vs ceiling {ceiling} dBm"⟩

def reducedMessage (overage : Number) : String :=
  let overText := fmtFixed 2 overage
  let ceiling := fmtFixed 2 cap.maxEirpDBm
  s!"Tx power reduced by {overText} dB to meet EIRP ceiling {ceiling} dBm."

def project (action : Action) (_context : Context) :
    Except PyErr (Action × List ConstraintViolation) := do
  let e ← eirp py action
  let overage := e - cap.maxEirpDBm
  if Number.lt (.fin 0) overage then
    let tx ← floatField py action "tx_power_dBm" zero
    .ok (action.set "tx_power_dBm" (.float (tx - overage)),
      [⟨id, "hard", some (-overage), cap.reducedMessage overage⟩])
  else .ok (action, [])

def invariant : Invariant := ⟨id, evaluate py cap, project py cap⟩

end MaxEirp

/-- Downlink power flux density ceiling, for actions that say they are NTN. -/
structure PfdCeiling where
  maxPfd : Number

namespace PfdCeiling
variable (cap : PfdCeiling)

def id : String := "pfd_ceiling_ntn"

def applies (action : Action) : Bool := (action.getD "ntn" (.bool false)).truthy

/-- `math.pi`, the double. -/
def mathPi : ℚ := 884279719003555 / 281474976710656

/-- PFD in dBW/m^2/MHz at the surface. -/
def computePfd (action : Action) : Except PyErr Number := do
  let tx ← floatField py action "tx_power_dBm" zero
  let gain ← floatField py action "sat_antenna_gain_dBi" zero
  let eirpDBW := tx + gain - .fin 30
  let slant ← floatField py action "slant_range_m" (.float (.fin 550000))
  let d := Number.max slant (.fin 1)
  let spread ← mathLog10 py (.fin (4 * mathPi) * d * d)
  let bw ← floatField py action "bandwidth_hz" (.float (.fin (10 ^ 6)))
  let bwMhz := Number.max (bw.divBy (10 ^ 6)) (.fin (1 / 10 ^ 6))
  let bwLog ← mathLog10 py bwMhz
  .ok (eirpDBW - .fin 10 * spread - .fin 10 * bwLog)

def evaluate (action : Action) (_context : Context) : Except PyErr InvariantCheck :=
  if applies action then do
    let pfd ← computePfd py action
    let margin := cap.maxPfd - pfd
    let pfdText := fmtFixed 2 pfd
    let ceiling := fmtFixed 2 cap.maxPfd
    .ok ⟨id, Number.le (.fin 0) margin, some margin, "dB",
      s!"PFD {pfdText} dBW/m^2/MHz vs ceiling {ceiling} dBW/m^2/MHz"⟩
  else .ok ⟨id, true, none, "n/a", "not an NTN downlink decision"⟩

def reducedMessage (overage : Number) : String :=
  let overText := fmtFixed 2 overage
  let ceiling := fmtFixed 2 cap.maxPfd
  s!"LEO downlink power reduced by {overText} dB to meet the " ++
  s!"ITU-R PFD ceiling {ceiling} dBW/m^2/MHz."

def project (action : Action) (_context : Context) :
    Except PyErr (Action × List ConstraintViolation) :=
  if applies action then do
    let pfd ← computePfd py action
    let overage := pfd - cap.maxPfd
    if Number.lt (.fin 0) overage then
      let tx ← floatField py action "tx_power_dBm" zero
      .ok (action.set "tx_power_dBm" (.float (tx - overage)),
        [⟨id, "hard", some (-overage), cap.reducedMessage overage⟩])
    else .ok (action, [])
  else .ok (action, [])

def invariant : Invariant := ⟨id, evaluate py cap, project py cap⟩

end PfdCeiling

/-- The neural receiver graded against an independent error rate. -/
structure NeuralRxEnvelope where
  toleranceDB : Number
  minConfidence : ℚ
  requireMeasurement : Bool
  fallbackBlock : String

namespace NeuralRxEnvelope
variable (env : NeuralRxEnvelope)

def id : String := "neural_rx_envelope"

def applies (action : Action) : Except PyErr Bool := do
  let text ← (action.getD "block" (.str "")).toStr py
  .ok (startsWith text "neural_rx")

def eps : ℚ := 1 / 10 ^ 9

/-- Grade of an error rate against the baseline; `src` says where the rate is from. -/
def grade (action : Action) (base measured : Number) (src : String) :
    Except PyErr InvariantCheck := do
  let ratio ← Number.div (base + .fin eps) (measured + .fin eps)
  let log ← mathLog10 py ratio
  let margin := .fin 10 * log + env.toleranceDB
  let conf ← floatField py action "demap_confidence" (.float (.fin 1))
  let measuredText := fmtGeneral 3 measured
  let baseText := fmtGeneral 3 base
  let confText := fmtFixed 2 conf
  let minText := py.floatRepr (.fin env.minConfidence)
  .ok ⟨id, Number.le (.fin 0) margin && Number.le (.fin env.minConfidence) conf, some margin, "dB",
    s!"neural TBLER {measuredText} [{src}] vs baseline {baseText} " ++
    s!"(conf {confText} ≥ {minText})"⟩

def unverifiedDetail (selfReported : Number) : String :=
  let reported := fmtGeneral 3 selfReported
  "UNVERIFIED neural-RX: no context['measured_tbler'] " ++
  "(CRC/HARQ telemetry) supplied — self-reported TBLER " ++
  s!"{reported} is NOT trusted; falling back."

def evaluate (action : Action) (context : Context) : Except PyErr InvariantCheck := do
  if ← applies py action then
    let base ← floatField py action "baseline_tbler" zero
    let selfReported ← floatField py action "predicted_tbler" zero
    match context.getD "measured_tbler" .null with
    | .null =>
      if env.requireMeasurement then
        .ok ⟨id, false, none, "dB", unverifiedDetail selfReported⟩
      else env.grade py action base selfReported "self-reported (LAB, untrusted)"
    | measured =>
      let value ← measured.toFloat py
      env.grade py action base value "measured CRC/HARQ"
  else .ok ⟨id, true, none, "n/a", "not a neural-RX decision"⟩

def fallbackMessage (context : Context) : String :=
  let fallback := env.fallbackBlock
  if (context.getD "measured_tbler" .null).isNull && env.requireMeasurement then
    "neural-RX UNVERIFIED (no independent CRC/HARQ measurement); fell back " ++
    s!"to {fallback}."
  else
    "neural-RX outside its measured envelope; fell back to " ++
    s!"{fallback} (certified classical receiver)."

def project (action : Action) (context : Context) :
    Except PyErr (Action × List ConstraintViolation) := do
  let check ← env.evaluate py action context
  if check.satisfied then .ok (action, [])
  else
    let predicted ← floatField py action "baseline_tbler"
      (action.getD "predicted_tbler" zero)
    let out := ((action.set "block" (.str env.fallbackBlock)).set fallbackKey
      (.str env.fallbackBlock)).set "predicted_tbler" (.float predicted)
    .ok (out, [⟨id, "hard", check.margin, env.fallbackMessage context⟩])

def invariant : Invariant := ⟨id, evaluate py env, project py env⟩

end NeuralRxEnvelope

/-- A legal M-QAM order with bounded PAPR. -/
structure ConstellationLegality where
  maxPaprDB : Number
  fallbackBlock : String

namespace ConstellationLegality
variable (legal : ConstellationLegality)

def id : String := "constellation_legality"

def allowedOrders : List Int := [4, 16, 64, 256]

def applies (action : Action) : Except PyErr Bool := do
  if action.has "constellation_order" then .ok true
  else
    let text ← (action.getD "block" (.str "")).toStr py
    .ok (hasInfix text "learned_constellation")

def orderField (action : Action) : Except PyErr Int :=
  (action.getD "constellation_order" (.int 0)).toInt py

def evaluate (action : Action) (_context : Context) : Except PyErr InvariantCheck := do
  if ← applies py action then
    let order ← orderField py action
    let papr ← floatField py action "papr_dB" zero
    let orderOk := decide (order ∈ allowedOrders)
    let margin := legal.maxPaprDB - papr
    let orderText ← intStr order
    let legality := if orderOk then "legal" else "ILLEGAL"
    let paprText := fmtFixed 2 papr
    let ceiling := fmtFixed 2 legal.maxPaprDB
    .ok ⟨id, orderOk && Number.le (.fin 0) margin, some margin, "dB",
      s!"order {orderText} ({legality}), PAPR {paprText} dB vs ceiling {ceiling} dB"⟩
  else .ok ⟨id, true, none, "n/a", "no constellation in decision"⟩

def legalLe (order : Int) : List Int :=
  let below := allowedOrders.filter (fun o => decide (o ≤ order))
  if below.isEmpty then [4] else below

def snap (order : Int) : Int := ((legalLe order).max?).getD 4

def fallBack (action : Action) : Action :=
  (action.set "block" (.str legal.fallbackBlock)).set fallbackKey (.str legal.fallbackBlock)

def snapOrder (action : Action) : Except PyErr (Action × List ConstraintViolation) := do
  let order ← orderField py action
  if order ∈ allowedOrders then .ok (action, [])
  else
    let orderText ← intStr order
    let snapped := toString (snap order)
    let fallback := legal.fallbackBlock
    .ok (legal.fallBack (action.set "constellation_order" (.int (snap order))),
      [⟨id, "hard", none,
        s!"illegal constellation order {orderText} snapped to {snapped}-QAM ({fallback})."⟩])

def clipPapr (action : Action) : Except PyErr (Action × List ConstraintViolation) := do
  let papr ← floatField py action "papr_dB" zero
  if Number.lt legal.maxPaprDB papr then
    let paprText := fmtFixed 2 papr
    let ceiling := fmtFixed 2 legal.maxPaprDB
    .ok (legal.fallBack (action.set "papr_dB" (.float legal.maxPaprDB)),
      [⟨id, "hard", some (legal.maxPaprDB - papr),
        s!"PAPR {paprText} dB clipped to {ceiling} dB via classical QAM fallback."⟩])
  else .ok (action, [])

def project (action : Action) (_context : Context) :
    Except PyErr (Action × List ConstraintViolation) := do
  if ← applies py action then
    let (snapped, orderCorr) ← legal.snapOrder py action
    let (out, paprCorr) ← legal.clipPapr py snapped
    .ok (out, orderCorr ++ paprCorr)
  else .ok (action, [])

def invariant : Invariant := ⟨id, evaluate py legal, project py legal⟩

end ConstellationLegality

namespace LawfulIntercept

def id : String := "lawful_intercept"

def evaluate (li : LIConstraint) (action : Action) (context : Context) :
    Except PyErr InvariantCheck := do
  let violations ← li.checkFeasibility py action context
  .ok ⟨id, violations.isEmpty, none, "bool",
    match violations with
    | [] => "no LI conflict"
    | first :: _ => first.message⟩

def invariant (li : LIConstraint) : Invariant := ⟨id, evaluate py li, li.project py⟩

end LawfulIntercept
end
end HorizonRic
