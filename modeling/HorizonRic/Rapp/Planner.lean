import HorizonRic.Io.Schemas
import HorizonRic.Policy.Counterfactual

/-!
The planner of `rapp/pipeline.py`: the clamped risk of an event, the candidate
policies of the three risk bands, the choice among them, and the rejected
alternatives. A risk is a finite float, given by its exact value.
-/
namespace HorizonRic.Rapp

open Py Io Evidence Policy

structure PipelineConfig where
  bandLoHz : Number := .fin 3400000000
  bandHiHz : Number := .fin 3500000000
  maxEirpDbm : Number := .fin 33
  decisionBudgetMs : Number := .fin 1000
  statusPollAttempts : Int := 3
  statusPollIntervalS : Number := .fin 1
  rappId : String := "horizon-ric-rapp"
  rappVersion : String := "0.2.0"

def riskDefault : ℚ := 1 / 20

/-- `_risk`: an overflowing integer is not caught. -/
def risk (py : Interpreter) (event : TelemetryEvent) : Except PyErr ℚ :=
  match (Dict.getD event.payload "sla_risk_30s" (.float (.fin riskDefault))).toFloat py with
  | .ok (.fin q) => .ok (min (max q 0) 1)
  | .ok _ => .ok riskDefault
  | .error .typeError => .ok riskDefault
  | .error .valueError => .ok riskDefault
  | .error e => .error e

def qosPriority : String := "horizon.qos.priority"
def trafficSteering : String := "horizon.traffic.steering"
def admissionControl : String := "horizon.admission.control"

/-- `_BAND_CENTRES`. -/
def bandCentres : Dict ℚ :=
  [(qosPriority, 3 / 20), (trafficSteering, 9 / 20), (admissionControl, 4 / 5)]

/-- `round(x, 1)`. -/
def roundTenths (q : ℚ) : ℚ := roundHalfEven (q * 10) / 10

section
variable (r : ℚ)

def priority : Int := max 1 (min 15 (1 + roundHalfEven (r * 14)))

def preferredPath : String :=
  if r < 3 / 10 then "terrestrial" else if r < 3 / 5 then "hybrid" else "ntn"

def admission : Dict Value :=
  if r < 3 / 10 then [("decision", .str "accept")]
  else if r < 3 / 5 then
    [("decision", .str "defer"),
      ("defer_until_seconds", .float (.fin (roundTenths (30 + 270 * r))))]
  else [("decision", .str "reject")]

/-- `_candidates`, in the order of the dictionary. -/
def candidates (event : TelemetryEvent) (decisionId : String) : List (String × Dict Value) :=
  let rappMetadata := ("rapp_metadata", Value.dict [("decision_id", .str decisionId)])
  [(qosPriority,
      [("scope", .dict [("slice_id", .str ("slice-" ++ event.sourceId))]),
        ("qos_objectives", .dict [("priority", .int (priority r))]), rappMetadata]),
    (trafficSteering,
      [("scope", .dict [("ue_group", .str "default")]),
        ("steering_objectives", .dict [("preferred_path", .str (preferredPath r)),
          ("ntn_share_pct", .float (.fin (roundTenths (min (r * 100) 100))))]), rappMetadata]),
    (admissionControl,
      [("scope", .dict [("workload_class", .str "ai_inference")]),
        ("admission", .dict (admission r)), rappMetadata])]

/-- `_choose`. -/
def choose : String :=
  if r < 3 / 10 then qosPriority else if r < 3 / 5 then trafficSteering else admissionControl

/-- `candidates[policy_type]`. -/
def chosenPayload (event : TelemetryEvent) (decisionId : String) : Except PyErr (Dict Value) :=
  match Dict.get? (choose r) (candidates r event decisionId) with
  | some payload => .ok payload
  | none => .error .keyError

def risk1min : ℚ := min (r * (11 / 10)) 1
def risk5min : ℚ := min (r * (3 / 2)) 1

/-- `_predicted_outcome`. -/
def predictedOutcome (p : Pydantic) : Except PyErr PredictedOutcome :=
  predictedOutcomeOf p (.fin (min r 1)) (.fin (risk1min r)) (.fin (risk5min r))

/-- `scores[name]`. -/
def score (name : String) : ℚ := 1 - |r - Dict.getD bandCentres name 0|

/-- The `AlternativeCandidate` of a policy that was not chosen. -/
def alternative (candidate : String × Dict Value) : AlternativeCandidate where
  action := [("policy_type", .str candidate.1), ("policy_payload", .dict candidate.2)]
  rewardSum := .fin (score r candidate.1)
  constraintViolationSum := .fin 0
  slaRisk30s := .fin r
  slaRisk1min := .fin (risk1min r)
  slaRisk5min := .fin (risk5min r)
  primaryMetric := if 1 / 5 < r then "sla_risk_30s" else "planner_score"
  primaryValue := some (.fin (if 1 / 5 < r then r else score r candidate.1))
  threshold := .fin (if 1 / 5 < r then 1 / 5 else score r (choose r))

def rejected (p : Pydantic) (event : TelemetryEvent) (decisionId : String) (seed : Int) :
    Except PyErr (List RejectedAlternative) :=
  buildRejectedAlternatives p (.fin (score r (choose r))) softConstraintThresholdDefault seed
    (((candidates r event decisionId).filter fun c => c.1 ≠ choose r).map (alternative r))

end

/-- `_shield_action`. -/
def shieldAction (cfg : PipelineConfig) (policyType : String) (payload : Dict Value) : Dict Value :=
  [("block", .str "policy_emit"), ("policy_type", .str policyType),
    ("policy_payload", .dict payload),
    ("frequency_hz", .float ((cfg.bandLoHz + cfg.bandHiHz).divBy 2)),
    ("bandwidth_hz", .float (Number.min (.fin 20000000) (cfg.bandHiHz - cfg.bandLoHz))),
    ("tx_power_dBm", .float (Number.min (.fin 24) (cfg.maxEirpDbm - .fin 9))),
    ("antenna_gain_dBi", .float (.fin 5))]

/-! The risk is a probability, and all that is derived from it validates. -/

/-- The risk is an integer that no float holds. -/
def HugeRisk (event : TelemetryEvent) : Prop :=
  ∃ n, Dict.get? "sla_risk_30s" event.payload = some (.int n) ∧ floatOverflow ≤ n.natAbs

/-- `float` of anything else returns, or raises a class that `_risk` catches. -/
theorem toFloat_cases (py : Interpreter) (v : Value) :
    (∃ n, v = .int n ∧ floatOverflow ≤ n.natAbs ∧ v.toFloat py = .error .overflowError) ∨
      (∃ x, v.toFloat py = .ok x) ∨ v.toFloat py = .error .typeError ∨
      v.toFloat py = .error .valueError := by
  cases v with
  | int n =>
    by_cases small : n.natAbs < floatOverflow
    · exact Or.inr (Or.inl ⟨.fin n, if_pos small⟩)
    · exact Or.inl ⟨n, rfl, Nat.le_of_not_lt small, if_neg small⟩
  | str s =>
    cases read : py.floatOfStr s with
    | some x => exact Or.inr (Or.inl ⟨x, by rw [Value.toFloat, read]⟩)
    | none => exact Or.inr (Or.inr (Or.inr (by rw [Value.toFloat, read])))
  | bool b => exact Or.inr (Or.inl ⟨_, rfl⟩)
  | float x => exact Or.inr (Or.inl ⟨x, rfl⟩)
  | _ => exact Or.inr (Or.inr (Or.inl rfl))

theorem risk_huge (py : Interpreter) {event : TelemetryEvent} (huge : HugeRisk event) :
    risk py event = .error .overflowError := by
  obtain ⟨n, field, large⟩ := huge
  have raised : (Value.int n).toFloat py = .error .overflowError :=
    if_neg (Nat.not_lt_of_le large)
  rw [risk, Dict.getD, field, Option.getD_some, raised]

theorem risk_isOk (py : Interpreter) {event : TelemetryEvent} (small : ¬ HugeRisk event) :
    ∃ r, risk py event = .ok r ∧ 0 ≤ r ∧ r ≤ 1 := by
  have default : (0 : ℚ) ≤ riskDefault ∧ riskDefault ≤ 1 := by norm_num [riskDefault]
  rcases toFloat_cases py (Dict.getD event.payload "sla_risk_30s" (.float (.fin riskDefault))) with
    ⟨n, value, large, _⟩ | ⟨x, float⟩ | raised | raised
  · exfalso
    cases field : Dict.get? "sla_risk_30s" event.payload with
    | none =>
      rw [Dict.getD, field] at value
      cases value
    | some v =>
      rw [Dict.getD, field, Option.getD_some] at value
      exact small ⟨n, by rw [field, value], large⟩
  · rw [risk, float]
    cases x with
    | fin q =>
      refine ⟨min (max q 0) 1, rfl, ?_, min_le_right _ _⟩
      exact le_min (le_max_right _ _) zero_le_one
    | nan => exact ⟨riskDefault, rfl, default⟩
    | inf s => exact ⟨riskDefault, rfl, default⟩
  · rw [risk, raised]
    exact ⟨riskDefault, rfl, default⟩
  · rw [risk, raised]
    exact ⟨riskDefault, rfl, default⟩

theorem inUnit_fin (p : Pydantic) {q : ℚ} (above : 0 ≤ q) (below : q ≤ 1) :
    p.inUnit (.fin q) = true := by
  simp [Pydantic.inUnit, Number.isNan, above, below]

section
variable {r : ℚ} (low : 0 ≤ r) (high : r ≤ 1)
include low

theorem risk1min_inUnit (p : Pydantic) : p.inUnit (.fin (risk1min r)) = true := by
  refine inUnit_fin p (le_min ?_ zero_le_one) (min_le_right _ _)
  positivity

theorem risk5min_inUnit (p : Pydantic) : p.inUnit (.fin (risk5min r)) = true := by
  refine inUnit_fin p (le_min ?_ zero_le_one) (min_le_right _ _)
  positivity

theorem predictedOutcome_isOk (p : Pydantic) : ∃ outcome, predictedOutcome r p = .ok outcome :=
  predictedOutcomeOf_isOk (inUnit_fin p (le_min low zero_le_one) (min_le_right _ _))
    (risk1min_inUnit low p) (risk5min_inUnit low p)

include high

theorem rejected_isOk (p : Pydantic) (event : TelemetryEvent) (decisionId : String) (seed : Int) :
    ∃ alternatives, rejected r p event decisionId seed = .ok alternatives := by
  apply buildRejectedAlternatives_isOk
  intro cand member
  obtain ⟨candidate, _, rfl⟩ := List.mem_map.mp member
  exact ⟨inUnit_fin p low high, risk1min_inUnit low p, risk5min_inUnit low p⟩

end

theorem chosenPayload_isOk (r : ℚ) (event : TelemetryEvent) (decisionId : String) :
    ∃ payload, chosenPayload r event decisionId = .ok payload := by
  unfold chosenPayload choose
  split_ifs
  · exact ⟨_, rfl⟩
  · exact ⟨_, rfl⟩
  · exact ⟨_, rfl⟩

end HorizonRic.Rapp
