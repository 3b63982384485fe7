import HorizonRic.Evidence.Schema
import HorizonRic.Python.Format

/-!
`policy/counterfactual.py` with `generate_human_explanation` of
`evidence/explanation.py`: the rejected alternatives of a decision, ranked by
score, each with its machine-readable cause and the sentence made from it.
-/
namespace HorizonRic.Policy

open Py Evidence

/-- `_TEMPLATES[cause]`, filled in. -/
def generateHumanExplanation (reason : RejectionReasonMachine) : String :=
  let metric := reason.primaryMetric
  let horizon := reason.horizon.literal
  let valuePct := fmtPercent 0 reason.predictedValue
  let limitPct := fmtPercent 0 reason.threshold
  let value := fmtFixed 2 reason.predictedValue
  let limit := fmtFixed 2 reason.threshold
  match reason.primaryCause with
  | .gatewayOverload =>
    s!"Predicted to push {metric} to {valuePct} load at +{horizon}, exceeding the {limitPct} " ++
    "safety threshold and risking SLA breach for downstream slices."
  | .slaBreachPredicted =>
    s!"Predicted SLA breach probability {valuePct} on {metric} at +{horizon}, above the " ++
    s!"{limitPct} threshold."
  | .computeOverload =>
    s!"Edge compute {metric} predicted at {valuePct} utilization at +{horizon}, exceeding the " ++
    s!"{limitPct} ceiling and risking AI workload queueing delays."
  | .energyCost =>
    s!"Energy cost on {metric} predicted at {value} kWh at +{horizon}, exceeding the {limit} kWh " ++
    "budget without compensating SLA gain."
  | .ntnCapacityExhausted =>
    s!"NTN capacity on {metric} predicted at {valuePct} at +{horizon}, exceeding the {limitPct} " ++
    "reserve target."
  | .spectrumUnavailable =>
    s!"Spectrum allocation conflict on {metric} at +{horizon}: predicted utilization {valuePct} " ++
    s!"vs allowed {limitPct}."
  | .constraintViolationHard =>
    s!"Action would violate hard regulatory constraint on {metric}: predicted {value}, limit " ++
    s!"{limit}. Hard rejection."
  | .constraintViolationSoft =>
    s!"Action would violate soft operator-policy constraint on {metric}: predicted {value}, " ++
    s!"threshold {limit}. Soft preference."
  | .policyOscillation =>
    s!"Predicted policy oscillation on {metric}: change rate {value} above threshold {limit} " ++
    s!"within {horizon}."

structure AlternativeCandidate where
  action : Dict Value
  rewardSum : Number
  constraintViolationSum : Number
  slaRisk30s : Number := .fin 0
  slaRisk1min : Number := .fin 0
  slaRisk5min : Number := .fin 0
  primaryMetric : String := "score"
  primaryValue : Option Number := none
  threshold : Number := .fin 0
  horizon : Horizon := .s30

/-- `PredictedOutcome(sla_risk_30s=..., sla_risk_1min=..., sla_risk_5min=...)`. -/
def predictedOutcomeOf (p : Pydantic) (risk30s risk1min risk5min : Number) :
    Except PyErr PredictedOutcome :=
  let outcome : PredictedOutcome := ⟨risk30s, risk1min, risk5min, [], .fin 0, .fin 0, []⟩
  if outcome.valid p then .ok outcome else .error .validationError

def primaryCauseOf (cand : AlternativeCandidate) (chosenScore softConstraintThreshold : Number) :
    PrimaryCause :=
  if Number.lt softConstraintThreshold cand.constraintViolationSum then .constraintViolationHard
  else if Number.lt (.fin (1 / 5)) cand.slaRisk30s then .slaBreachPredicted
  else if Number.lt cand.rewardSum chosenScore then .energyCost
  else .policyOscillation

def primaryValueOf (cand : AlternativeCandidate) (cause : PrimaryCause) : Number :=
  match cand.primaryValue with
  | some x => x
  | none =>
    if cause = .constraintViolationHard then cand.constraintViolationSum else cand.slaRisk30s

section
variable (p : Pydantic) (chosenScore softConstraintThreshold : Number) (randomSeed : Int)

def rejectedAlternative (rank : Int) (cand : AlternativeCandidate) :
    Except PyErr RejectedAlternative := do
  let cause := primaryCauseOf cand chosenScore softConstraintThreshold
  let reason : RejectionReasonMachine :=
    ⟨cause, cand.primaryMetric, primaryValueOf cand cause, cand.threshold, cand.horizon⟩
  let outcome ← predictedOutcomeOf p cand.slaRisk30s cand.slaRisk1min cand.slaRisk5min
  .ok ⟨rank, cand.action, outcome, reason, generateHumanExplanation reason, randomSeed⟩

/-- The loop over `enumerate(sorted_cands, start=1)`. -/
def rejectedFrom (rank : Int) : List AlternativeCandidate → Except PyErr (List RejectedAlternative)
  | [] => .ok []
  | cand :: rest => do
    let first ← rejectedAlternative p chosenScore softConstraintThreshold randomSeed rank cand
    let others ← rejectedFrom (rank + 1) rest
    .ok (first :: others)

/-- `sorted(candidates, key=lambda c: c.reward_sum, reverse=True)`, which is stable. -/
def byReward (candidates : List AlternativeCandidate) : List AlternativeCandidate :=
  candidates.insertionSort fun a b => Number.lt a.rewardSum b.rewardSum = false

def buildRejectedAlternatives (candidates : List AlternativeCandidate) :
    Except PyErr (List RejectedAlternative) :=
  rejectedFrom p chosenScore softConstraintThreshold randomSeed 1 (byReward candidates)

end

/-- `soft_constraint_threshold=1e-6`. -/
def softConstraintThresholdDefault : Number := .fin (1 / 10 ^ 6)

/-! When the alternatives validate. -/

/-- The three risks are probabilities. -/
def AlternativeCandidate.InRange (p : Pydantic) (cand : AlternativeCandidate) : Prop :=
  p.inUnit cand.slaRisk30s = true ∧ p.inUnit cand.slaRisk1min = true ∧
    p.inUnit cand.slaRisk5min = true

section
variable {p : Pydantic} {chosenScore softConstraintThreshold : Number} {randomSeed : Int}

theorem predictedOutcomeOf_isOk {risk30s risk1min risk5min : Number} (h30 : p.inUnit risk30s = true)
    (h1 : p.inUnit risk1min = true) (h5 : p.inUnit risk5min = true) :
    ∃ outcome, predictedOutcomeOf p risk30s risk1min risk5min = .ok outcome := by
  have valid : PredictedOutcome.valid p ⟨risk30s, risk1min, risk5min, [], .fin 0, .fin 0, []⟩ =
      true := by
    have unused : p.inUnit (.fin 0) = true := by simp [Pydantic.inUnit, Number.isNan]
    have free : p.atLeast 0 (.fin 0) = true := by simp [Pydantic.atLeast, Number.isNan]
    simp only [PredictedOutcome.valid, h30, h1, h5, unused, free, Bool.and_self]
  exact ⟨_, if_pos valid⟩

theorem rejectedFrom_isOk {candidates : List AlternativeCandidate}
    (inRange : ∀ cand ∈ candidates, cand.InRange p) (rank : Int) :
    ∃ rejected, rejectedFrom p chosenScore softConstraintThreshold randomSeed rank candidates =
      .ok rejected := by
  induction candidates generalizing rank with
  | nil => exact ⟨[], rfl⟩
  | cons cand rest ih =>
    obtain ⟨h30, h1, h5⟩ := inRange cand List.mem_cons_self
    obtain ⟨outcome, built⟩ := predictedOutcomeOf_isOk h30 h1 h5
    obtain ⟨others, more⟩ :=
      ih (fun other member => inRange other (List.mem_cons_of_mem _ member)) (rank + 1)
    simp [rejectedFrom, rejectedAlternative, built, more, ok_bind]

/-- Candidates whose risks are probabilities all become alternatives. -/
theorem buildRejectedAlternatives_isOk {candidates : List AlternativeCandidate}
    (inRange : ∀ cand ∈ candidates, cand.InRange p) :
    ∃ rejected, buildRejectedAlternatives p chosenScore softConstraintThreshold randomSeed
      candidates = .ok rejected := by
  refine rejectedFrom_isOk ?_ 1
  intro cand member
  exact inRange cand ((List.perm_insertionSort _ _).subset member)

end
end HorizonRic.Policy
