import HorizonRic.Evidence.Fields

/-!
The models of `evidence/schema.py`: their fields, `model_dump_json` as the JSON
value it writes, and `model_validate`. A timestamp is the ISO text that pydantic
writes for it. Unknown keys are ignored.
-/
namespace HorizonRic.Evidence

open Py Json

structure ModelVersions where
  encoder : String
  riskHeads : String
  dyna : String
  policy : String
  constraintLayer : String
  rapp : String

structure PredictedOutcome where
  slaRisk30s : Number
  slaRisk1min : Number
  slaRisk5min : Number
  gatewayLoads : Dict Number := []
  ntnCapacityUsed : Number := .fin 0
  energyKwh : Number := .fin 0
  constraintViolations : List String := []

inductive PrimaryCause where
  | gatewayOverload
  | slaBreachPredicted
  | computeOverload
  | energyCost
  | ntnCapacityExhausted
  | spectrumUnavailable
  | constraintViolationHard
  | constraintViolationSoft
  | policyOscillation
  deriving DecidableEq

inductive Horizon where
  | s30
  | s60
  | s300
  deriving DecidableEq

inductive Severity where
  | hard
  | soft
  deriving DecidableEq

structure RejectionReasonMachine where
  primaryCause : PrimaryCause
  primaryMetric : String
  predictedValue : Number
  threshold : Number
  horizon : Horizon

structure RejectedAlternative where
  rank : Int
  action : Dict Value
  predictedOutcome : PredictedOutcome
  rejectionReasonMachine : RejectionReasonMachine
  rejectionReasonHuman : String
  randomSeed : Int

structure ConstraintCorrection where
  constraintId : String
  severity : Severity
  marginDb : Option Number := none
  message : String

structure DecisionRecord where
  decisionId : String
  timestamp : String
  rappInstanceId : String
  tenantId : Option String := none
  stateHash : String
  stateBlobUri : Option String := none
  chosenAction : Dict Value
  predictedOutcomeChosen : PredictedOutcome
  rejectedAlternatives : List RejectedAlternative
  constraintCorrections : List ConstraintCorrection := []
  modelVersions : ModelVersions
  randomSeed : Option Int := none
  actualOutcome30s : Option PredictedOutcome := none
  actualOutcome1min : Option PredictedOutcome := none
  actualOutcome5min : Option PredictedOutcome := none
  operatorOverride : Bool := false
  operatorOverrideReason : Option String := none
  slaBreachContext : Option (List (Dict Value)) := none

def PrimaryCause.literal : PrimaryCause → String
  | .gatewayOverload => "gateway_overload"
  | .slaBreachPredicted => "sla_breach_predicted"
  | .computeOverload => "compute_overload"
  | .energyCost => "energy_cost"
  | .ntnCapacityExhausted => "ntn_capacity_exhausted"
  | .spectrumUnavailable => "spectrum_unavailable"
  | .constraintViolationHard => "constraint_violation_hard"
  | .constraintViolationSoft => "constraint_violation_soft"
  | .policyOscillation => "policy_oscillation"

def PrimaryCause.all : List PrimaryCause :=
  [.gatewayOverload, .slaBreachPredicted, .computeOverload, .energyCost, .ntnCapacityExhausted,
    .spectrumUnavailable, .constraintViolationHard, .constraintViolationSoft, .policyOscillation]

def Horizon.literal : Horizon → String
  | .s30 => "30s"
  | .s60 => "60s"
  | .s300 => "300s"

def Horizon.all : List Horizon := [.s30, .s60, .s300]

def Severity.literal : Severity → String
  | .hard => "hard"
  | .soft => "soft"

def Severity.all : List Severity := [.hard, .soft]

/-- `Literal[...]`: the member with this text. -/
def readLiteral (members : List α) (literal : α → String) (v : Value) : Option α :=
  members.find? fun a => v.eqStr (literal a)

/-! `model_dump_json`. -/

def ModelVersions.items (m : ModelVersions) : Dict Value :=
  [("encoder", .str m.encoder), ("risk_heads", .str m.riskHeads), ("dyna", .str m.dyna),
    ("policy", .str m.policy), ("constraint_layer", .str m.constraintLayer),
    ("rapp", .str m.rapp)]

def ModelVersions.dump (m : ModelVersions) : Value := .dict m.items

def PredictedOutcome.items (o : PredictedOutcome) : Dict Value :=
  [("sla_risk_30s", jsonFloat o.slaRisk30s), ("sla_risk_1min", jsonFloat o.slaRisk1min),
    ("sla_risk_5min", jsonFloat o.slaRisk5min), ("gateway_loads", jsonFloatDict o.gatewayLoads),
    ("ntn_capacity_used", jsonFloat o.ntnCapacityUsed), ("energy_kwh", jsonFloat o.energyKwh),
    ("constraint_violations", jsonTexts o.constraintViolations)]

def PredictedOutcome.dump (o : PredictedOutcome) : Value := .dict o.items

def RejectionReasonMachine.items (m : RejectionReasonMachine) : Dict Value :=
  [("primary_cause", .str m.primaryCause.literal), ("primary_metric", .str m.primaryMetric),
    ("predicted_value", jsonFloat m.predictedValue), ("threshold", jsonFloat m.threshold),
    ("horizon", .str m.horizon.literal)]

def RejectionReasonMachine.dump (m : RejectionReasonMachine) : Value := .dict m.items

def RejectedAlternative.items (a : RejectedAlternative) : Dict Value :=
  [("rank", .int a.rank), ("action", jsonAny (.dict a.action)),
    ("predicted_outcome", a.predictedOutcome.dump),
    ("rejection_reason_machine", a.rejectionReasonMachine.dump),
    ("rejection_reason_human", .str a.rejectionReasonHuman), ("random_seed", .int a.randomSeed)]

def RejectedAlternative.dump (a : RejectedAlternative) : Value := .dict a.items

def ConstraintCorrection.items (c : ConstraintCorrection) : Dict Value :=
  [("constraint_id", .str c.constraintId), ("severity", .str c.severity.literal),
    ("margin_dB", jsonOption jsonFloat c.marginDb), ("message", .str c.message)]

def ConstraintCorrection.dump (c : ConstraintCorrection) : Value := .dict c.items

def jsonDicts (ds : List (Dict Value)) : Value := .list (ds.map fun d => jsonAny (.dict d))

namespace DecisionRecord

def items (r : DecisionRecord) : Dict Value :=
  [("decision_id", .str r.decisionId), ("timestamp", .str r.timestamp),
    ("rapp_instance_id", .str r.rappInstanceId),
    ("tenant_id", jsonOption Value.str r.tenantId), ("state_hash", .str r.stateHash),
    ("state_blob_uri", jsonOption Value.str r.stateBlobUri),
    ("chosen_action", jsonAny (.dict r.chosenAction)),
    ("predicted_outcome_chosen", r.predictedOutcomeChosen.dump),
    ("rejected_alternatives", .list (r.rejectedAlternatives.map RejectedAlternative.dump)),
    ("constraint_corrections", .list (r.constraintCorrections.map ConstraintCorrection.dump)),
    ("model_versions", r.modelVersions.dump),
    ("random_seed", jsonOption Value.int r.randomSeed),
    ("actual_outcome_30s", jsonOption PredictedOutcome.dump r.actualOutcome30s),
    ("actual_outcome_1min", jsonOption PredictedOutcome.dump r.actualOutcome1min),
    ("actual_outcome_5min", jsonOption PredictedOutcome.dump r.actualOutcome5min),
    ("operator_override", .bool r.operatorOverride),
    ("operator_override_reason", jsonOption Value.str r.operatorOverrideReason),
    ("sla_breach_context", jsonOption jsonDicts r.slaBreachContext)]

/-- `json.loads(rec.model_dump_json())`, where every integer can be read. -/
def modelDump (r : DecisionRecord) : Value := .dict r.items

end DecisionRecord

/-! `model_validate`. -/

section
variable (p : Pydantic) (c : Coercions)

def readModelVersions : Value → Option ModelVersions
  | .dict d => do
    let encoder ← field d "encoder" readText
    let riskHeads ← field d "risk_heads" readText
    let dyna ← field d "dyna" readText
    let policy ← field d "policy" readText
    let constraintLayer ← field d "constraint_layer" readText
    let rapp ← field d "rapp" readText
    some ⟨encoder, riskHeads, dyna, policy, constraintLayer, rapp⟩
  | _ => none

def readPredictedOutcome : Value → Option PredictedOutcome
  | .dict d => do
    let slaRisk30s ← field d "sla_risk_30s" (readUnit p c)
    let slaRisk1min ← field d "sla_risk_1min" (readUnit p c)
    let slaRisk5min ← field d "sla_risk_5min" (readUnit p c)
    let gatewayLoads ← fieldD d "gateway_loads" (readFloatDict c) []
    let ntnCapacityUsed ← fieldD d "ntn_capacity_used" (readUnit p c) (.fin 0)
    let energyKwh ← fieldD d "energy_kwh" (readAtLeast p c 0) (.fin 0)
    let constraintViolations ← fieldD d "constraint_violations" (readList readText) []
    some ⟨slaRisk30s, slaRisk1min, slaRisk5min, gatewayLoads, ntnCapacityUsed, energyKwh,
      constraintViolations⟩
  | _ => none

def readRejectionReason : Value → Option RejectionReasonMachine
  | .dict d => do
    let primaryCause ← field d "primary_cause" (readLiteral PrimaryCause.all PrimaryCause.literal)
    let primaryMetric ← field d "primary_metric" readText
    let predictedValue ← field d "predicted_value" (readFloat c)
    let threshold ← field d "threshold" (readFloat c)
    let horizon ← field d "horizon" (readLiteral Horizon.all Horizon.literal)
    some ⟨primaryCause, primaryMetric, predictedValue, threshold, horizon⟩
  | _ => none

/-- `Field(ge=1)` on an integer. -/
def readRank (v : Value) : Option Int := do
  let n ← readInt c v
  if 1 ≤ n then some n else none

def readRejectedAlternative : Value → Option RejectedAlternative
  | .dict d => do
    let rank ← field d "rank" (readRank c)
    let action ← field d "action" readDict
    let predictedOutcome ← field d "predicted_outcome" (readPredictedOutcome p c)
    let reason ← field d "rejection_reason_machine" (readRejectionReason c)
    let human ← field d "rejection_reason_human" readText
    let randomSeed ← field d "random_seed" (readInt c)
    some ⟨rank, action, predictedOutcome, reason, human, randomSeed⟩
  | _ => none

def readCorrection : Value → Option ConstraintCorrection
  | .dict d => do
    let constraintId ← field d "constraint_id" readText
    let severity ← field d "severity" (readLiteral Severity.all Severity.literal)
    let marginDb ← fieldD d "margin_dB" (nullable (readFloat c)) none
    let message ← field d "message" readText
    some ⟨constraintId, severity, marginDb, message⟩
  | _ => none

/-- `DecisionRecord.model_validate`; none is a `ValidationError`. -/
def validate : Value → Option DecisionRecord
  | .dict d => do
    let decisionId ← field d "decision_id" readText
    let timestamp ← field d "timestamp" (readDatetime p c)
    let rappInstanceId ← field d "rapp_instance_id" readText
    let tenantId ← fieldD d "tenant_id" (nullable readText) none
    let stateHash ← field d "state_hash" readText
    let stateBlobUri ← fieldD d "state_blob_uri" (nullable readText) none
    let chosenAction ← field d "chosen_action" readDict
    let predictedOutcomeChosen ← field d "predicted_outcome_chosen" (readPredictedOutcome p c)
    let rejectedAlternatives ←
      field d "rejected_alternatives" (readList (readRejectedAlternative p c))
    let constraintCorrections ← fieldD d "constraint_corrections" (readList (readCorrection c)) []
    let modelVersions ← field d "model_versions" readModelVersions
    let randomSeed ← fieldD d "random_seed" (nullable (readInt c)) none
    let actualOutcome30s ←
      fieldD d "actual_outcome_30s" (nullable (readPredictedOutcome p c)) none
    let actualOutcome1min ←
      fieldD d "actual_outcome_1min" (nullable (readPredictedOutcome p c)) none
    let actualOutcome5min ←
      fieldD d "actual_outcome_5min" (nullable (readPredictedOutcome p c)) none
    let operatorOverride ← fieldD d "operator_override" (readBool c) false
    let operatorOverrideReason ←
      fieldD d "operator_override_reason" (nullable readText) none
    let slaBreachContext ←
      fieldD d "sla_breach_context" (nullable (readList readDict)) none
    some ⟨decisionId, timestamp, rappInstanceId, tenantId, stateHash, stateBlobUri, chosenAction,
      predictedOutcomeChosen, rejectedAlternatives, constraintCorrections, modelVersions,
      randomSeed, actualOutcome30s, actualOutcome1min, actualOutcome5min, operatorOverride,
      operatorOverrideReason, slaBreachContext⟩
  | _ => none

end

/-! What the constructors check. -/

def PredictedOutcome.valid (p : Pydantic) (o : PredictedOutcome) : Bool :=
  p.inUnit o.slaRisk30s && p.inUnit o.slaRisk1min && p.inUnit o.slaRisk5min &&
    p.inUnit o.ntnCapacityUsed && p.atLeast 0 o.energyKwh

def RejectedAlternative.valid (p : Pydantic) (a : RejectedAlternative) : Bool :=
  decide (1 ≤ a.rank) && a.predictedOutcome.valid p

/-- The record is one that pydantic builds: every range holds, and the timestamp is a date. -/
def DecisionRecord.valid (p : Pydantic) (r : DecisionRecord) : Bool :=
  decide (p.isoOfText r.timestamp = some r.timestamp) && r.predictedOutcomeChosen.valid p &&
    r.rejectedAlternatives.all (RejectedAlternative.valid p) &&
    r.actualOutcome30s.all (PredictedOutcome.valid p) &&
    r.actualOutcome1min.all (PredictedOutcome.valid p) &&
    r.actualOutcome5min.all (PredictedOutcome.valid p)

/-! The floats that JSON writes as null and validation then refuses. -/

def PredictedOutcome.finite (o : PredictedOutcome) : Bool :=
  o.slaRisk30s.isFinite && o.slaRisk1min.isFinite && o.slaRisk5min.isFinite &&
    o.gatewayLoads.all (fun item => item.2.isFinite) && o.ntnCapacityUsed.isFinite &&
    o.energyKwh.isFinite

def RejectedAlternative.finite (a : RejectedAlternative) : Bool :=
  a.predictedOutcome.finite && a.rejectionReasonMachine.predictedValue.isFinite &&
    a.rejectionReasonMachine.threshold.isFinite

/-- Every float that the schema requires is finite. -/
def DecisionRecord.finite (r : DecisionRecord) : Bool :=
  r.predictedOutcomeChosen.finite && r.rejectedAlternatives.all RejectedAlternative.finite &&
    r.actualOutcome30s.all PredictedOutcome.finite &&
    r.actualOutcome1min.all PredictedOutcome.finite &&
    r.actualOutcome5min.all PredictedOutcome.finite

end HorizonRic.Evidence
