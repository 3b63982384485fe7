import HorizonRic.Python.Value

/-!
Data model of the Decision Safety Shield: one check per invariant, one entry
per correction, and the certificate of one shielded decision.
-/
namespace HorizonRic
open Py

structure ConstraintViolation where
  constraintId : String
  severity : String
  marginDB : Option Number
  message : String
  deriving DecidableEq

structure InvariantCheck where
  invariantId : String
  satisfied : Bool
  margin : Option Number
  unit : String
  detail : String
  deriving DecidableEq

structure SafetyCertificate where
  decisionId : String
  issuedAt : String
  loopTier : String
  block : String
  actionProposed : Dict Value
  actionSafe : Dict Value
  invariants : List InvariantCheck
  corrections : List ConstraintViolation
  violatedIds : List String
  projected : Bool
  fallbackUsed : Bool
  fallbackTo : Value
  safe : Bool
  emitBlocked : Bool
  rngSeed : Option Int
  modelProvenance : Option (Dict Value)
  signature : Option String
  signingKeyFingerprint : Option String

/-- Return value of `dispose`: the safe action and its certificate. -/
structure ShieldDisposition where
  safeAction : Dict Value
  certificate : SafetyCertificate

end HorizonRic
