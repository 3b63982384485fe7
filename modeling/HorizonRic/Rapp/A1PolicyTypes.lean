import HorizonRic.Python.JsonSchema
import HorizonRic.Rapp.Planner

/-!
The policy types of `rapp/a1_adapter.py` with the schemas they are registered with,
and that every payload the planner can choose conforms to the schema of its type.
-/
namespace HorizonRic.Rapp

open Py Io JsonSchema

/-- What `policy_types` holds for a type beside its id. -/
structure PolicyTypeSpec where
  name : String
  description : String
  schemaV : String

/-- `DEFAULT_POLICY_TYPES`. -/
def defaultPolicyTypes : Dict PolicyTypeSpec :=
  [("horizon.qos.priority",
      ⟨"QoS priority weights per slice",
        "Adjust per-slice QoS priority based on Horizon-RIC SLA risk", "1.0.0"⟩),
    ("horizon.traffic.steering",
      ⟨"Traffic steering across TN/NTN",
        "Direct traffic between terrestrial cell and NTN beam", "1.0.0"⟩),
    ("horizon.admission.control",
      ⟨"Slice/UE admission control",
        "Accept, defer, or reject AI workload based on edge load", "1.0.0"⟩),
    ("horizon.spectrum.reservation",
      ⟨"Spectrum bin reservation",
        "Reserve spectrum sub-bands for critical traffic classes", "1.0.0"⟩)]

structure CreateSchema where
  properties : List (String × JsonSchema)
  required : List String

def CreateSchema.document (schema : CreateSchema) : Value :=
  draft07 schema.properties schema.required

def CreateSchema.valid (schema : CreateSchema) (v : Value) : Bool :=
  (closed schema.properties schema.required).valid v

def commonMeta : String × JsonSchema :=
  ("rapp_metadata", closed [("decision_id", string), ("rapp_version", string),
    ("model_versions", anyObject)] ["decision_id"])

/-- `_policy_create_schema`. -/
def policyCreateSchema (policyType : String) : Except PyErr CreateSchema :=
  if policyType = "horizon.qos.priority" then
    .ok ⟨[("scope", closed [("slice_id", string), ("ue_id", string)] ["slice_id"]),
      ("qos_objectives", closed [("priority", integer 1 15),
        ("guaranteed_bit_rate_kbps", number 0 none), ("max_bit_rate_kbps", number 0 none)]
        ["priority"]),
      commonMeta], ["scope", "qos_objectives"]⟩
  else if policyType = "horizon.traffic.steering" then
    .ok ⟨[("scope", closed [("ue_group", string), ("cell_id", string)] ["ue_group"]),
      ("steering_objectives", closed [("preferred_path", oneOf ["terrestrial", "ntn", "hybrid"]),
        ("ntn_share_pct", number 0 (some 100))] ["preferred_path"]),
      commonMeta], ["scope", "steering_objectives"]⟩
  else if policyType = "horizon.admission.control" then
    .ok ⟨[("scope", closed [("workload_class", string), ("edge_node_id", string)]
        ["workload_class"]),
      ("admission", closed [("decision", oneOf ["accept", "defer", "reject"]),
        ("defer_until_seconds", number 0 none)] ["decision"]),
      commonMeta], ["scope", "admission"]⟩
  else if policyType = "horizon.spectrum.reservation" then
    .ok ⟨[("scope", closed [("band_id", string), ("cell_id", string)] ["band_id"]),
      ("reservation", closed [("freq_low_hz", number 0 none), ("freq_high_hz", number 0 none),
        ("traffic_class", string)] ["freq_low_hz", "freq_high_hz", "traffic_class"]),
      commonMeta], ["scope", "reservation"]⟩
  else .error .valueError

/-- `jsonschema` decides these schemas by their keywords. -/
def SchemasDecided (js : Jsonschema) : Prop :=
  ∀ policyType schema v, policyCreateSchema policyType = .ok schema →
    (js.validate v schema.document = .ok () ↔ schema.valid v = true)

/-! Rounding keeps a number within whole bounds. -/

theorem le_roundHalfEven {n : ℤ} {q : ℚ} (le : n ≤ q) : n ≤ roundHalfEven q := by
  have near := (abs_le.mp (abs_roundHalfEven_sub_le q)).1
  have below : (n : ℚ) < roundHalfEven q + 1 := by linarith
  exact_mod_cast Int.lt_add_one_iff.mp (by exact_mod_cast below)

theorem roundHalfEven_le {n : ℤ} {q : ℚ} (le : q ≤ n) : roundHalfEven q ≤ n := by
  have near := (abs_le.mp (abs_roundHalfEven_sub_le q)).2
  have above : (roundHalfEven q : ℚ) < n + 1 := by linarith
  exact_mod_cast Int.lt_add_one_iff.mp (by exact_mod_cast above)

theorem roundTenths_nonneg {q : ℚ} (nonneg : 0 ≤ q) : 0 ≤ roundTenths q := by
  have whole : (0 : ℤ) ≤ roundHalfEven (q * 10) := le_roundHalfEven (by push_cast; linarith)
  have : (0 : ℚ) ≤ roundHalfEven (q * 10) := by exact_mod_cast whole
  rw [roundTenths]
  linarith

theorem roundTenths_le {n : ℤ} {q : ℚ} (le : q ≤ n) : roundTenths q ≤ n := by
  have whole : roundHalfEven (q * 10) ≤ n * 10 := roundHalfEven_le (by push_cast; linarith)
  have : (roundHalfEven (q * 10) : ℚ) ≤ n * 10 := by exact_mod_cast whole
  rw [roundTenths]
  linarith

/-! The candidates, one for each risk band. -/

section
variable {r : ℚ} (low : 0 ≤ r) (event : TelemetryEvent) (decisionId : String)

theorem preferredPath_listed (r : ℚ) :
    ["terrestrial", "ntn", "hybrid"].contains (preferredPath r) = true := by
  unfold preferredPath
  split_ifs <;> decide

theorem priority_within (r : ℚ) : 1 ≤ priority r ∧ priority r ≤ 15 := by
  unfold priority
  omega

theorem integer_valid {a b n : Int} (within : a ≤ n ∧ n ≤ b) :
    (integer a b).valid (.int n) = true := by
  simpa [valid, isInteger, number?, JsonSchema.within] using within

theorem number_valid {q : ℚ} {high : Option Int} (lower : 0 ≤ q) (upper : ∀ n ∈ high, q ≤ n) :
    (number 0 high).valid (.float (.fin q)) = true := by
  cases high with
  | none => simp [valid, number?, JsonSchema.within, lower]
  | some n => simp [valid, number?, JsonSchema.within, lower, upper n rfl]

/-- A payload is valid when its scope, its objectives and its metadata are. -/
theorem payload_valid {key : String} {scope objectives metadata : JsonSchema}
    {scope_ objectives_ metadata_ : Value} (apart : key ≠ "scope" ∧ key ≠ "rapp_metadata")
    (inScope : scope.valid scope_ = true) (aimed : objectives.valid objectives_ = true)
    (described : metadata.valid metadata_ = true) :
    CreateSchema.valid
      ⟨[("scope", scope), (key, objectives), ("rapp_metadata", metadata)], ["scope", key]⟩
      (.dict [("scope", scope_), (key, objectives_), ("rapp_metadata", metadata_)]) = true := by
  simp [CreateSchema.valid, valid, validItems, Dict.has, inScope, aimed, described, apart.1.symm,
    apart.2]

theorem commonMeta_valid (decisionId : String) :
    commonMeta.2.valid (.dict [("decision_id", .str decisionId)]) = true :=
  closed_single (by decide) rfl

theorem qosPriority_conforms : ∃ schema, policyCreateSchema qosPriority = .ok schema ∧
    schema.valid (.dict [("scope", .dict [("slice_id", .str ("slice-" ++ event.sourceId))]),
      ("qos_objectives", .dict [("priority", .int (priority r))]),
      ("rapp_metadata", .dict [("decision_id", .str decisionId)])]) = true :=
  ⟨_, if_pos rfl, payload_valid (by decide) (closed_single (by decide) rfl)
    (closed_single (by decide) (integer_valid (priority_within r))) (commonMeta_valid decisionId)⟩

include low

theorem trafficSteering_conforms : ∃ schema, policyCreateSchema trafficSteering = .ok schema ∧
    schema.valid (.dict [("scope", .dict [("ue_group", .str "default")]),
      ("steering_objectives", .dict [("preferred_path", .str (preferredPath r)),
        ("ntn_share_pct", .float (.fin (roundTenths (min (r * 100) 100))))]),
      ("rapp_metadata", .dict [("decision_id", .str decisionId)])]) = true := by
  have listed : (oneOf ["terrestrial", "ntn", "hybrid"]).valid (.str (preferredPath r)) = true :=
    preferredPath_listed r
  have share : (number 0 (some 100)).valid
      (.float (.fin (roundTenths (min (r * 100) 100)))) = true := by
    apply number_valid
    · exact roundTenths_nonneg (le_min (by positivity) (by norm_num))
    · rintro n ⟨⟩
      exact roundTenths_le (min_le_right _ _)
  exact ⟨_, (if_neg (by decide)).trans (if_pos rfl),
    payload_valid (by decide) (closed_single (by decide) rfl)
      (closed_pair (by decide) listed share) (commonMeta_valid decisionId)⟩

theorem admissionControl_conforms : ∃ schema, policyCreateSchema admissionControl = .ok schema ∧
    schema.valid (.dict [("scope", .dict [("workload_class", .str "ai_inference")]),
      ("admission", .dict (admission r)),
      ("rapp_metadata", .dict [("decision_id", .str decisionId)])]) = true := by
  have deferred : (number 0 none).valid (.float (.fin (roundTenths (30 + 270 * r)))) = true :=
    number_valid (roundTenths_nonneg (by positivity)) (by rintro n ⟨⟩)
  refine ⟨_, (if_neg (by decide)).trans ((if_neg (by decide)).trans (if_pos rfl)),
    payload_valid (by decide) (closed_single (by decide) rfl) ?_ (commonMeta_valid decisionId)⟩
  unfold admission
  split_ifs
  · exact closed_single (by decide) (by decide)
  · exact closed_pair (by decide) (by decide) deferred
  · exact closed_single (by decide) (by decide)

/-- Every candidate conforms to the schema of the type it is a candidate for. -/
theorem candidates_conform {policyType : String} {payload : Dict Value}
    (candidate : (policyType, payload) ∈ candidates r event decisionId) :
    ∃ schema, policyCreateSchema policyType = .ok schema ∧
      schema.valid (.dict payload) = true := by
  simp only [candidates, List.mem_cons, Prod.mk.injEq, List.not_mem_nil, or_false] at candidate
  obtain ⟨rfl, rfl⟩ | ⟨rfl, rfl⟩ | ⟨rfl, rfl⟩ := candidate
  · exact qosPriority_conforms event decisionId
  · exact trafficSteering_conforms low decisionId
  · exact admissionControl_conforms low decisionId

end
end HorizonRic.Rapp
