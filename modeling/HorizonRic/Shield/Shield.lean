import HorizonRic.Shield.Invariants

/-!
The Decision Safety Shield: check, project, certify. The four exception
classes a malformed payload raises count as violations and never propagate
from a check or a projection.
-/
namespace HorizonRic
open Py

/-- `except (TypeError, ValueError, OverflowError, ZeroDivisionError)`. -/
def caught : PyErr → Bool
  | .typeError => true
  | .valueError => true
  | .overflowError => true
  | .zeroDivisionError => true
  | _ => false

structure Shield where
  invariants : List Invariant
  maxPasses : Nat

/-- Keyword arguments of `dispose`, and the clock reading it stamps. -/
structure DisposeArgs where
  decisionId : String
  rngSeed : Option Int
  loopTier : String
  modelProvenance : Option (Dict Value)
  issuedAt : String

def contextOf (context : Option Context) : Context := context.getD []

def malformedCheck (inv : Invariant) (e : PyErr) : InvariantCheck :=
  ⟨inv.id, false, none, "error", "evaluation rejected malformed input: " ++ e.name⟩

def malformedProjection (inv : Invariant) (e : PyErr) : ConstraintViolation :=
  ⟨inv.id, "hard", none, "projection rejected malformed input: " ++ e.name⟩

def checkOne (inv : Invariant) (action : Action) (ctx : Context) :
    Except PyErr InvariantCheck :=
  match inv.evaluate action ctx with
  | .ok c => .ok c
  | .error e => if caught e then .ok (malformedCheck inv e) else .error e

def checkAll (action : Action) (ctx : Context) :
    List Invariant → Except PyErr (List InvariantCheck)
  | [] => .ok []
  | inv :: rest => do
    let head ← checkOne inv action ctx
    let tail ← checkAll action ctx rest
    .ok (head :: tail)

/-- One sweep of projections; it stops once the action is blocked. -/
def projectAll (ctx : Context) :
    List Invariant → Action → Except PyErr (Action × List ConstraintViolation)
  | [], safe => .ok (safe, [])
  | inv :: rest, safe =>
    match inv.project safe ctx with
    | .ok (next, corr) =>
      if isBlocked next then .ok (next, corr)
      else do
        let (last, more) ← projectAll ctx rest next
        .ok (last, corr ++ more)
    | .error e =>
      if caught e then .ok (block safe, [malformedProjection inv e]) else .error e

structure LoopState where
  safe : Action
  corrections : List ConstraintViolation
  projected : Bool

namespace Shield
variable (shield : Shield)

def invariantIds : List String := shield.invariants.map Invariant.id

def check (action : Action) (context : Option Context) : Except PyErr (List InvariantCheck) :=
  checkAll action (contextOf context) shield.invariants

def violations (action : Action) (context : Option Context) :
    Except PyErr (List InvariantCheck) := do
  let checks ← shield.check action context
  .ok (checks.filter (fun c => !c.satisfied))

def feasibleAll (action : Action) (ctx : Context) : List Invariant → Except PyErr Bool
  | [] => .ok true
  | inv :: rest =>
    match inv.evaluate action ctx with
    | .ok c => if c.satisfied then feasibleAll action ctx rest else .ok false
    | .error e => if caught e then .ok false else .error e

def isFeasible (action : Action) (context : Option Context) : Except PyErr Bool :=
  feasibleAll action (contextOf context) shield.invariants

/-- The bounded fix-point loop, with the passes that are left. -/
def projectLoop (ctx : Context) : Nat → LoopState → Except PyErr LoopState
  | 0, s => .ok s
  | passes + 1, s => do
    let checks ← checkAll s.safe ctx shield.invariants
    if checks.all InvariantCheck.satisfied then .ok s
    else
      let (next, corr) ← projectAll ctx shield.invariants s.safe
      let after : LoopState := ⟨next, s.corrections ++ corr, true⟩
      if isBlocked next then .ok after else projectLoop ctx passes after

def blockText (py : Interpreter) (action : Action) : Except PyErr String :=
  (action.getD "block" (.str "unknown")).toStr py

/-- `safe.get("block") != block and str(safe.get("block", "")).startswith("classical")`. -/
def blockChangedToClassical (py : Interpreter) (safe : Action) (text : String) :
    Except PyErr Bool :=
  if (safe.getD "block" .null).eqStr text then .ok false
  else do
    let now ← (safe.getD "block" (.str "")).toStr py
    .ok (startsWith now "classical")

/-- The verdict and certificate of the action the loop ends with. -/
def certify (py : Interpreter) (action : Action) (ctx : Context) (args : DisposeArgs)
    (text : String) (s : LoopState) : Except PyErr ShieldDisposition := do
  let finalChecks ← checkAll s.safe ctx shield.invariants
  let violatedIds := (finalChecks.filter (fun c => !c.satisfied)).map InvariantCheck.invariantId
  let emitBlocked := isBlocked s.safe || !violatedIds.isEmpty
  -- a residual violation the projections could not resolve
  let safe := if emitBlocked && !isBlocked s.safe then block s.safe else s.safe
  let fallbackTo := safe.getD fallbackKey .null
  let changed ← blockChangedToClassical py safe text
  .ok ⟨safe, {
    decisionId := args.decisionId
    issuedAt := args.issuedAt
    loopTier := args.loopTier
    block := text
    actionProposed := action
    actionSafe := safe
    invariants := finalChecks
    corrections := s.corrections
    violatedIds := violatedIds
    projected := s.projected
    fallbackUsed := !fallbackTo.isNull || changed
    fallbackTo := fallbackTo
    safe := !emitBlocked
    emitBlocked := emitBlocked
    rngSeed := args.rngSeed
    modelProvenance := args.modelProvenance
    signature := none
    signingKeyFingerprint := none }⟩

def dispose (py : Interpreter) (action : Action) (context : Option Context)
    (args : DisposeArgs) : Except PyErr ShieldDisposition := do
  let text ← blockText py action
  let s ← shield.projectLoop (contextOf context) shield.maxPasses ⟨action, [], false⟩
  shield.certify py action (contextOf context) args text s

end Shield

def liChain (py : Interpreter) : Option LIConstraint → List Invariant
  | some li => [LawfulIntercept.invariant py li]
  | none => []

def neuralRx (toleranceDB : Number) : NeuralRxEnvelope :=
  ⟨toleranceDB, 1 / 5, true, "classical_lmmse"⟩

structure TerrestrialParams where
  bandLoHz : Number
  bandHiHz : Number
  maxEirpDBm : Number
  liConstraint : Option LIConstraint
  maxPaprDB : Number
  neuralRxToleranceDB : Number
  guardBandHz : Number

def TerrestrialParams.mask (p : TerrestrialParams) : SpectralMask :=
  ⟨p.bandLoHz, p.bandHiHz, p.guardBandHz⟩

def defaultTerrestrialShield (py : Interpreter) (p : TerrestrialParams) : Shield where
  invariants :=
    [NumericSanity.invariant py] ++ liChain py p.liConstraint ++
    [SpectralMask.invariant py p.mask,
      MaxEirp.invariant py ⟨p.maxEirpDBm⟩,
      NeuralRxEnvelope.invariant py (neuralRx p.neuralRxToleranceDB),
      ConstellationLegality.invariant py ⟨p.maxPaprDB, "classical_qam"⟩]
  maxPasses := 8

structure NtnParams where
  bandLoHz : Number
  bandHiHz : Number
  maxEirpDBm : Number
  maxPfd : Number
  liConstraint : Option LIConstraint
  neuralRxToleranceDB : Number

def NtnParams.mask (p : NtnParams) : SpectralMask := ⟨p.bandLoHz, p.bandHiHz, .fin 0⟩

def defaultNtnShield (py : Interpreter) (p : NtnParams) : Shield where
  invariants :=
    [NumericSanity.invariant py] ++ liChain py p.liConstraint ++
    [SpectralMask.invariant py p.mask,
      MaxEirp.invariant py ⟨p.maxEirpDBm⟩,
      PfdCeiling.invariant py ⟨p.maxPfd⟩,
      NeuralRxEnvelope.invariant py (neuralRx p.neuralRxToleranceDB)]
  maxPasses := 8

end HorizonRic
