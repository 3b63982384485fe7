import HorizonRic.Evidence.Schema

/-!
A written record reads back from a store exactly when every float that the schema
requires is finite. What comes back is written the same, up to what the store makes
of the free-form mappings.
-/
namespace HorizonRic.Evidence

open Py Json

/-- The mappings whose values no schema describes. -/
def DecisionRecord.freeForm (r : DecisionRecord) : List (Dict Value) :=
  r.chosenAction :: (r.rejectedAlternatives.map RejectedAlternative.action ++
    r.slaBreachContext.getD [])

/-- An alternative and what comes back for it. -/
structure AlternativeBack (T : Value → Value) (a a' : RejectedAlternative) : Prop where
  rank : a'.rank = a.rank
  action : T (jsonAny (.dict a.action)) = .dict a'.action
  outcome : sortKeys a'.predictedOutcome.dump = sortKeys a.predictedOutcome.dump
  reason : a'.rejectionReasonMachine = a.rejectionReasonMachine
  human : a'.rejectionReasonHuman = a.rejectionReasonHuman
  seed : a'.randomSeed = a.randomSeed

def BreachesBack (T : Value → Value) : Option (List (Dict Value)) →
    Option (List (Dict Value)) → Prop
  | some ds, some ds' => List.Forall₂ (fun d d' => T (jsonAny (.dict d)) = .dict d') ds ds'
  | none, none => True
  | _, _ => False

def SameOutcome (o o' : Option PredictedOutcome) : Prop :=
  sortKeys (jsonOption PredictedOutcome.dump o') = sortKeys (jsonOption PredictedOutcome.dump o)

/-- A record and what comes back for it. -/
structure RecordBack (T : Value → Value) (r r' : DecisionRecord) : Prop where
  decisionId : r'.decisionId = r.decisionId
  timestamp : r'.timestamp = r.timestamp
  rappInstanceId : r'.rappInstanceId = r.rappInstanceId
  tenantId : r'.tenantId = r.tenantId
  stateHash : r'.stateHash = r.stateHash
  stateBlobUri : r'.stateBlobUri = r.stateBlobUri
  chosenAction : T (jsonAny (.dict r.chosenAction)) = .dict r'.chosenAction
  predictedOutcomeChosen :
    sortKeys r'.predictedOutcomeChosen.dump = sortKeys r.predictedOutcomeChosen.dump
  rejectedAlternatives :
    List.Forall₂ (AlternativeBack T) r.rejectedAlternatives r'.rejectedAlternatives
  constraintCorrections :
    sortKeys (.list (r'.constraintCorrections.map ConstraintCorrection.dump)) =
      sortKeys (.list (r.constraintCorrections.map ConstraintCorrection.dump))
  modelVersions : r'.modelVersions = r.modelVersions
  randomSeed : r'.randomSeed = r.randomSeed
  actualOutcome30s : SameOutcome r.actualOutcome30s r'.actualOutcome30s
  actualOutcome1min : SameOutcome r.actualOutcome1min r'.actualOutcome1min
  actualOutcome5min : SameOutcome r.actualOutcome5min r'.actualOutcome5min
  operatorOverride : r'.operatorOverride = r.operatorOverride
  operatorOverrideReason : r'.operatorOverrideReason = r.operatorOverrideReason
  slaBreachContext : BreachesBack T r.slaBreachContext r'.slaBreachContext

/-! Keys. -/

theorem outcome_keys (o : PredictedOutcome) : (o.items.map Prod.fst).Nodup := by
  simp [PredictedOutcome.items]

theorem reason_keys (m : RejectionReasonMachine) : (m.items.map Prod.fst).Nodup := by
  simp [RejectionReasonMachine.items]

theorem alternative_keys (a : RejectedAlternative) : (a.items.map Prod.fst).Nodup := by
  simp [RejectedAlternative.items]

theorem correction_keys (x : ConstraintCorrection) : (x.items.map Prod.fst).Nodup := by
  simp [ConstraintCorrection.items]

theorem versions_keys (m : ModelVersions) : (m.items.map Prod.fst).Nodup := by
  simp [ModelVersions.items]

theorem record_keys (r : DecisionRecord) : (r.items.map Prod.fst).Nodup := by
  simp [DecisionRecord.items]

theorem sortKeys_dict_congr {a b : Dict Value}
    (same : a.map (fun item => (item.1, sortKeys item.2)) =
      b.map fun item => (item.1, sortKeys item.2)) :
    sortKeys (.dict a) = sortKeys (.dict b) := by
  rw [sortKeys_dict, sortKeys_dict, sortItems, sortItems, same]

theorem guard_bind (b : Bool) (a : α) (f : α → Option β) :
    (if b = true then some a else none).bind f = if b = true then f a else none := by
  cases b <;> rfl

section
variable (p : Pydantic) {c : Coercions} {T : Value → Value} (t : Transport c T)
include t

/-! Scalars. -/

theorem readText_str (s : String) : readText (T (.str s)) = some s := by
  rw [t.str]
  rfl

theorem readInt_int (n : Int) : readInt c (T (.int n)) = some n := by
  rw [t.int]
  rfl

theorem readRank_int {n : Int} (rank : 1 ≤ n) : readRank c (T (.int n)) = some n := by
  rw [readRank, readInt_int t]
  exact if_pos rank

theorem readBool_bool (b : Bool) : readBool c (T (.bool b)) = some b := by
  rw [t.bool]
  rfl

theorem readLiteral_str [DecidableEq α] {members : List α} {literal : α → String}
    (injective : ∀ a ∈ members, ∀ b ∈ members, literal a = literal b → a = b) {a : α}
    (member : a ∈ members) :
    readLiteral members literal (T (.str (literal a))) = some a := by
  have hit : members.find? (fun b => (Value.str (literal a)).eqStr (literal b)) ≠ none := by
    rw [ne_eq, List.find?_eq_none]
    intro misses
    exact misses a member (by simp [Value.eqStr])
  obtain ⟨b, found⟩ := Option.ne_none_iff_exists'.mp hit
  have among := List.mem_of_find?_eq_some found
  have equal := List.find?_some found
  have same : a = b := by
    apply injective a member b among
    simpa [Value.eqStr] using equal
  rw [t.str]
  change members.find? (fun b => (Value.str (literal a)).eqStr (literal b)) = some a
  rw [found, same]

theorem readCause (cause : PrimaryCause) :
    readLiteral PrimaryCause.all PrimaryCause.literal (T (.str cause.literal)) = some cause :=
  readLiteral_str t (by decide) (by cases cause <;> decide)

theorem readHorizon (h : Horizon) :
    readLiteral Horizon.all Horizon.literal (T (.str h.literal)) = some h :=
  readLiteral_str t (by decide) (by cases h <;> decide)

theorem readSeverity (s : Severity) :
    readLiteral Severity.all Severity.literal (T (.str s.literal)) = some s :=
  readLiteral_str t (by decide) (by cases s <;> decide)

theorem readOptionalText (s : Option String) :
    nullable readText (T (jsonOption Value.str s)) = some s := by
  cases s with
  | none =>
    rw [jsonOption, t.null]
    rfl
  | some s =>
    rw [jsonOption, t.str]
    rfl

theorem readOptionalInt (n : Option Int) :
    nullable (readInt c) (T (jsonOption Value.int n)) = some n := by
  cases n with
  | none =>
    rw [jsonOption, t.null]
    rfl
  | some n =>
    rw [jsonOption, t.int]
    rfl

/-! The models of a record. -/

theorem readPredictedOutcome_stored {o : PredictedOutcome} (valid : o.valid p = true) :
    ∃ o', readPredictedOutcome p c (T o.dump) = (if o.finite then some o' else none) ∧
      sortKeys o'.dump = sortKeys o.dump := by
  simp only [PredictedOutcome.valid, Bool.and_eq_true] at valid
  obtain ⟨⟨⟨⟨range30s, range1min⟩, range5min⟩, rangeCapacity⟩, rangeEnergy⟩ := valid
  obtain ⟨stored, form, order⟩ := t.dict o.items
  obtain ⟨loads', loadsBack, loadsSame⟩ := readFloatDict_stored t o.gatewayLoads
  have risk30s : field stored "sla_risk_30s" (readUnit p c) =
      if o.slaRisk30s.isFinite then some o.slaRisk30s else none :=
    (field_stored (outcome_keys o) order rfl _).trans (readUnit_stored t p range30s)
  have risk1min : field stored "sla_risk_1min" (readUnit p c) =
      if o.slaRisk1min.isFinite then some o.slaRisk1min else none :=
    (field_stored (outcome_keys o) order rfl _).trans (readUnit_stored t p range1min)
  have risk5min : field stored "sla_risk_5min" (readUnit p c) =
      if o.slaRisk5min.isFinite then some o.slaRisk5min else none :=
    (field_stored (outcome_keys o) order rfl _).trans (readUnit_stored t p range5min)
  have loads : fieldD stored "gateway_loads" (readFloatDict c) [] =
      if o.gatewayLoads.all (fun item => item.2.isFinite) then some loads' else none :=
    (fieldD_stored (outcome_keys o) order rfl _ _).trans loadsBack
  have capacity : fieldD stored "ntn_capacity_used" (readUnit p c) (.fin 0) =
      if o.ntnCapacityUsed.isFinite then some o.ntnCapacityUsed else none :=
    (fieldD_stored (outcome_keys o) order rfl _ _).trans (readUnit_stored t p rangeCapacity)
  have energy : fieldD stored "energy_kwh" (readAtLeast p c 0) (.fin 0) =
      if o.energyKwh.isFinite then some o.energyKwh else none :=
    (fieldD_stored (outcome_keys o) order rfl _ _).trans (readAtLeast_stored t p rangeEnergy)
  have violations : fieldD stored "constraint_violations" (readList readText) [] =
      some o.constraintViolations :=
    (fieldD_stored (outcome_keys o) order rfl _ _).trans (readTexts t o.constraintViolations)
  refine ⟨{ o with gatewayLoads := loads' }, ?_, ?_⟩
  · rw [PredictedOutcome.dump, form]
    simp only [readPredictedOutcome, risk30s, risk1min, risk5min, loads, capacity, energy,
      violations, Option.bind_eq_bind, guard_bind, Option.bind_some]
    simp only [PredictedOutcome.finite, Bool.and_eq_true, ite_and]
  · apply sortKeys_dict_congr
    simp only [PredictedOutcome.items, List.map_cons, List.map_nil, loadsSame]

theorem outcome_survives {o : PredictedOutcome} (valid : o.valid p = true)
    (finite : o.finite = true) :
    Survives T (readPredictedOutcome p c) PredictedOutcome.dump o := by
  obtain ⟨o', back, same⟩ := readPredictedOutcome_stored p t valid
  rw [if_pos finite] at back
  exact ⟨o', back, same⟩

theorem outcome_finite {o o' : PredictedOutcome} (valid : o.valid p = true)
    (back : readPredictedOutcome p c (T o.dump) = some o') : o.finite = true := by
  obtain ⟨_, read, _⟩ := readPredictedOutcome_stored p t valid
  rw [read] at back
  by_contra notFinite
  rw [if_neg notFinite] at back
  cases back

theorem outcome_solid (o : PredictedOutcome) : T o.dump ≠ .null := by
  obtain ⟨stored, form, _⟩ := t.dict o.items
  intro isNull
  rw [PredictedOutcome.dump, form] at isNull
  cases isNull

theorem optionalOutcome_survives {o : Option PredictedOutcome}
    (valid : o.all (PredictedOutcome.valid p) = true)
    (finite : o.all PredictedOutcome.finite = true) :
    Survives T (nullable (readPredictedOutcome p c)) (jsonOption PredictedOutcome.dump) o := by
  apply survives_nullable t
  · intro x given
    subst given
    exact outcome_survives p t valid finite
  · exact fun x _ => outcome_solid t x

theorem optionalOutcome_finite {o : Option PredictedOutcome} {o' : Option PredictedOutcome}
    (valid : o.all (PredictedOutcome.valid p) = true)
    (back : nullable (readPredictedOutcome p c) (T (jsonOption PredictedOutcome.dump o)) =
      some o') : o.all PredictedOutcome.finite = true := by
  cases o with
  | none => rfl
  | some x =>
    rw [jsonOption, nullable_solid (outcome_solid t x)] at back
    obtain ⟨x', inner, _⟩ := Option.map_eq_some_iff.mp back
    exact outcome_finite p t valid inner

theorem readRejectionReason_stored (m : RejectionReasonMachine) :
    readRejectionReason c (T m.dump) =
      if m.predictedValue.isFinite = true ∧ m.threshold.isFinite = true then some m else none := by
  obtain ⟨stored, form, order⟩ := t.dict m.items
  have cause : field stored "primary_cause"
      (readLiteral PrimaryCause.all PrimaryCause.literal) = some m.primaryCause :=
    (field_stored (reason_keys m) order rfl _).trans (readCause t m.primaryCause)
  have metric : field stored "primary_metric" readText = some m.primaryMetric :=
    (field_stored (reason_keys m) order rfl _).trans (readText_str t _)
  have value : field stored "predicted_value" (readFloat c) =
      if m.predictedValue.isFinite then some m.predictedValue else none :=
    (field_stored (reason_keys m) order rfl _).trans (readFloat_stored t m.predictedValue)
  have threshold : field stored "threshold" (readFloat c) =
      if m.threshold.isFinite then some m.threshold else none :=
    (field_stored (reason_keys m) order rfl _).trans (readFloat_stored t m.threshold)
  have horizon : field stored "horizon" (readLiteral Horizon.all Horizon.literal) =
      some m.horizon :=
    (field_stored (reason_keys m) order rfl _).trans (readHorizon t m.horizon)
  rw [RejectionReasonMachine.dump, form]
  simp only [readRejectionReason, cause, metric, value, threshold, horizon, Option.bind_eq_bind,
    guard_bind, Option.bind_some]
  rw [ite_and]

theorem readRejectedAlternative_stored {a : RejectedAlternative} (valid : a.valid p = true) :
    ∃ a', readRejectedAlternative p c (T a.dump) = (if a.finite then some a' else none) ∧
      AlternativeBack T a a' := by
  simp only [RejectedAlternative.valid, Bool.and_eq_true, decide_eq_true_eq] at valid
  obtain ⟨stored, form, order⟩ := t.dict a.items
  obtain ⟨action', actionForm, actionBack⟩ := readDict_stored t a.action
  obtain ⟨outcome', outcomeBack, outcomeSame⟩ := readPredictedOutcome_stored p t valid.2
  have rank : field stored "rank" (readRank c) = some a.rank :=
    (field_stored (alternative_keys a) order rfl _).trans (readRank_int t valid.1)
  have action : field stored "action" readDict = some action' :=
    (field_stored (alternative_keys a) order rfl _).trans actionBack
  have outcome : field stored "predicted_outcome" (readPredictedOutcome p c) =
      if a.predictedOutcome.finite then some outcome' else none :=
    (field_stored (alternative_keys a) order rfl _).trans outcomeBack
  have reason : field stored "rejection_reason_machine" (readRejectionReason c) =
      if a.rejectionReasonMachine.predictedValue.isFinite = true ∧
        a.rejectionReasonMachine.threshold.isFinite = true then some a.rejectionReasonMachine
      else none :=
    (field_stored (alternative_keys a) order rfl _).trans (readRejectionReason_stored t _)
  have human : field stored "rejection_reason_human" readText =
      some a.rejectionReasonHuman :=
    (field_stored (alternative_keys a) order rfl _).trans (readText_str t _)
  have seed : field stored "random_seed" (readInt c) = some a.randomSeed :=
    (field_stored (alternative_keys a) order rfl _).trans (readInt_int t _)
  refine ⟨{ a with action := action', predictedOutcome := outcome' }, ?_,
    ⟨rfl, actionForm, outcomeSame, rfl, rfl, rfl⟩⟩
  rw [RejectedAlternative.dump, form]
  simp only [readRejectedAlternative, rank, action, outcome, reason, human, seed,
    Option.bind_eq_bind, Option.bind_some, guard_bind]
  by_cases finiteOutcome : a.predictedOutcome.finite = true
  · by_cases finiteReason : a.rejectionReasonMachine.predictedValue.isFinite = true ∧
        a.rejectionReasonMachine.threshold.isFinite = true
    · simp [RejectedAlternative.finite, finiteOutcome, finiteReason]
    · have unfinished : a.finite = false := by
        simp only [RejectedAlternative.finite, finiteOutcome, Bool.true_and]
        simpa using finiteReason
      simp [finiteOutcome, finiteReason, unfinished]
  · simp [RejectedAlternative.finite, finiteOutcome]

theorem alternative_finite {a a' : RejectedAlternative} (valid : a.valid p = true)
    (back : readRejectedAlternative p c (T a.dump) = some a') : a.finite = true := by
  obtain ⟨_, read, _⟩ := readRejectedAlternative_stored p t valid
  rw [read] at back
  by_contra notFinite
  rw [if_neg notFinite] at back
  cases back

theorem correction_survives (x : ConstraintCorrection) :
    Survives T (readCorrection c) ConstraintCorrection.dump x := by
  obtain ⟨margin', back, same⟩ := survives_optionalFloat t x.marginDb
  obtain ⟨stored, form, order⟩ := t.dict x.items
  refine ⟨{ x with marginDb := margin' }, ?_, ?_⟩
  · have id : field stored "constraint_id" readText = some x.constraintId :=
      (field_stored (correction_keys x) order rfl _).trans (readText_str t _)
    have severity : field stored "severity" (readLiteral Severity.all Severity.literal) =
        some x.severity :=
      (field_stored (correction_keys x) order rfl _).trans (readSeverity t x.severity)
    have margin : fieldD stored "margin_dB" (nullable (readFloat c)) none = some margin' :=
      (fieldD_stored (correction_keys x) order rfl _ _).trans back
    have message : field stored "message" readText = some x.message :=
      (field_stored (correction_keys x) order rfl _).trans (readText_str t _)
    rw [ConstraintCorrection.dump, form]
    simp only [readCorrection, id, severity, margin, message, Option.bind_eq_bind,
      Option.bind_some]
  · apply sortKeys_dict_congr
    simp only [ConstraintCorrection.items, List.map_cons, List.map_nil, same]

theorem readModelVersions_stored (m : ModelVersions) :
    readModelVersions (T m.dump) = some m := by
  obtain ⟨stored, form, order⟩ := t.dict m.items
  have text : ∀ key s, Dict.get? key m.items = some (.str s) →
      field stored key readText = some s := fun key s found =>
    (field_stored (versions_keys m) order found _).trans (readText_str t s)
  rw [ModelVersions.dump, form]
  simp only [readModelVersions, text "encoder" m.encoder rfl,
    text "risk_heads" m.riskHeads rfl, text "dyna" m.dyna rfl, text "policy" m.policy rfl,
    text "constraint_layer" m.constraintLayer rfl, text "rapp" m.rapp rfl, Option.bind_eq_bind,
    Option.bind_some]

theorem readBreaches_stored (ds : Option (List (Dict Value))) :
    ∃ ds', nullable (readList readDict) (T (jsonOption jsonDicts ds)) = some ds' ∧
      BreachesBack T ds ds' := by
  cases ds with
  | none =>
    refine ⟨none, ?_, trivial⟩
    rw [jsonOption, t.null]
    rfl
  | some ds =>
    have each : ∀ d ∈ ds, ∃ d', readDict (T (jsonAny (.dict d))) = some d' ∧
        T (jsonAny (.dict d)) = .dict d' := by
      intro d _
      obtain ⟨d', form, back⟩ := readDict_stored t d
      exact ⟨d', back, form⟩
    obtain ⟨ds', back, all⟩ := readList_stored t ds each
    have solid : T (jsonDicts ds) ≠ .null := by
      rw [jsonDicts, t.list]
      exact Value.noConfusion
    refine ⟨some ds', ?_, all⟩
    rw [jsonOption, nullable_solid solid, jsonDicts, back]
    rfl

/-! The whole record. -/

/-- Validation of a stored record, field by field. -/
theorem validate_stored_eq (r : DecisionRecord) : ∃ chosenAction breaches,
    T (jsonAny (.dict r.chosenAction)) = .dict chosenAction ∧
    BreachesBack T r.slaBreachContext breaches ∧
    validate p c (T r.modelDump) =
      (p.isoOfText r.timestamp).bind fun timestamp =>
      (readPredictedOutcome p c (T r.predictedOutcomeChosen.dump)).bind fun chosen =>
      (readList (readRejectedAlternative p c) (T (.list
        (r.rejectedAlternatives.map RejectedAlternative.dump)))).bind fun alternatives =>
      (readList (readCorrection c) (T (.list
        (r.constraintCorrections.map ConstraintCorrection.dump)))).bind fun corrections =>
      (nullable (readPredictedOutcome p c)
        (T (jsonOption PredictedOutcome.dump r.actualOutcome30s))).bind fun actual30s =>
      (nullable (readPredictedOutcome p c)
        (T (jsonOption PredictedOutcome.dump r.actualOutcome1min))).bind fun actual1min =>
      (nullable (readPredictedOutcome p c)
        (T (jsonOption PredictedOutcome.dump r.actualOutcome5min))).bind fun actual5min =>
      some ⟨r.decisionId, timestamp, r.rappInstanceId, r.tenantId, r.stateHash, r.stateBlobUri,
        chosenAction, chosen, alternatives, corrections, r.modelVersions, r.randomSeed, actual30s,
        actual1min, actual5min, r.operatorOverride, r.operatorOverrideReason, breaches⟩ := by
  obtain ⟨stored, form, order⟩ := t.dict r.items
  obtain ⟨chosenAction, actionForm, actionBack⟩ := readDict_stored t r.chosenAction
  obtain ⟨breaches', breachesBack, breachesAll⟩ := readBreaches_stored t r.slaBreachContext
  refine ⟨chosenAction, breaches', actionForm, breachesAll, ?_⟩
  have decisionId : field stored "decision_id" readText = some r.decisionId :=
    (field_stored (record_keys r) order rfl _).trans (readText_str t _)
  have timestamp : field stored "timestamp" (readDatetime p c) = p.isoOfText r.timestamp :=
    (field_stored (record_keys r) order rfl _).trans (congrArg (readDatetime p c) (t.str _))
  have instanceId : field stored "rapp_instance_id" readText = some r.rappInstanceId :=
    (field_stored (record_keys r) order rfl _).trans (readText_str t _)
  have tenantId : fieldD stored "tenant_id" (nullable readText) none = some r.tenantId :=
    (fieldD_stored (record_keys r) order rfl _ _).trans (readOptionalText t _)
  have stateHash : field stored "state_hash" readText = some r.stateHash :=
    (field_stored (record_keys r) order rfl _).trans (readText_str t _)
  have blob : fieldD stored "state_blob_uri" (nullable readText) none = some r.stateBlobUri :=
    (fieldD_stored (record_keys r) order rfl _ _).trans (readOptionalText t _)
  have action : field stored "chosen_action" readDict = some chosenAction :=
    (field_stored (record_keys r) order rfl _).trans actionBack
  have chosen : field stored "predicted_outcome_chosen" (readPredictedOutcome p c) =
      readPredictedOutcome p c (T r.predictedOutcomeChosen.dump) :=
    field_stored (record_keys r) order rfl _
  have alternatives : field stored "rejected_alternatives"
      (readList (readRejectedAlternative p c)) = readList (readRejectedAlternative p c)
        (T (.list (r.rejectedAlternatives.map RejectedAlternative.dump))) :=
    field_stored (record_keys r) order rfl _
  have corrections : fieldD stored "constraint_corrections"
      (readList (readCorrection c)) [] = readList (readCorrection c)
        (T (.list (r.constraintCorrections.map ConstraintCorrection.dump))) :=
    fieldD_stored (record_keys r) order rfl _ _
  have versions : field stored "model_versions" readModelVersions = some r.modelVersions :=
    (field_stored (record_keys r) order rfl _).trans (readModelVersions_stored t r.modelVersions)
  have seed : fieldD stored "random_seed" (nullable (readInt c)) none = some r.randomSeed :=
    (fieldD_stored (record_keys r) order rfl _ _).trans (readOptionalInt t _)
  have actual : ∀ key o, Dict.get? key r.items = some (jsonOption PredictedOutcome.dump o) →
      fieldD stored key (nullable (readPredictedOutcome p c)) none =
        nullable (readPredictedOutcome p c) (T (jsonOption PredictedOutcome.dump o)) :=
    fun key o found => fieldD_stored (record_keys r) order found _ _
  have override : fieldD stored "operator_override" (readBool c) false =
      some r.operatorOverride :=
    (fieldD_stored (record_keys r) order rfl _ _).trans (readBool_bool t _)
  have reason : fieldD stored "operator_override_reason" (nullable readText) none =
      some r.operatorOverrideReason :=
    (fieldD_stored (record_keys r) order rfl _ _).trans (readOptionalText t _)
  have breaches : fieldD stored "sla_breach_context" (nullable (readList readDict)) none =
      some breaches' :=
    (fieldD_stored (record_keys r) order rfl _ _).trans breachesBack
  rw [DecisionRecord.modelDump, form]
  rw [validate, decisionId, timestamp, instanceId, tenantId, stateHash, blob, action, chosen,
    alternatives, corrections, versions, seed, actual "actual_outcome_30s" _ rfl,
    actual "actual_outcome_1min" _ rfl, actual "actual_outcome_5min" _ rfl, override, reason,
    breaches]
  rfl

/-- A record that pydantic built, with finite floats where the schema requires floats, comes
    back from the store. -/
theorem validate_stored {r : DecisionRecord} (valid : r.valid p = true)
    (finite : r.finite = true) :
    ∃ r', validate p c (T r.modelDump) = some r' ∧ RecordBack T r r' := by
  simp only [DecisionRecord.valid, Bool.and_eq_true, decide_eq_true_eq] at valid
  obtain ⟨⟨⟨⟨⟨iso, chosenValid⟩, alternativesValid⟩, valid30s⟩, valid1min⟩, valid5min⟩ := valid
  simp only [DecisionRecord.finite, Bool.and_eq_true] at finite
  obtain ⟨⟨⟨⟨chosenFinite, alternativesFinite⟩, finite30s⟩, finite1min⟩, finite5min⟩ := finite
  obtain ⟨chosenAction, breaches, actionForm, breachesBack, form⟩ := validate_stored_eq p t r
  obtain ⟨chosen, chosenBack, chosenSame⟩ := outcome_survives p t chosenValid chosenFinite
  have eachAlternative : ∀ a ∈ r.rejectedAlternatives, ∃ a',
      readRejectedAlternative p c (T a.dump) = some a' ∧ AlternativeBack T a a' := by
    intro a member
    obtain ⟨a', back, same⟩ :=
      readRejectedAlternative_stored p t (List.all_eq_true.mp alternativesValid a member)
    rw [if_pos (List.all_eq_true.mp alternativesFinite a member)] at back
    exact ⟨a', back, same⟩
  obtain ⟨alternatives, alternativesBack, alternativesAll⟩ :=
    readList_stored t r.rejectedAlternatives eachAlternative
  obtain ⟨corrections, correctionsBack, correctionsSame⟩ :=
    survives_list t r.constraintCorrections fun x _ => correction_survives t x
  obtain ⟨actual30s, back30s, same30s⟩ := optionalOutcome_survives p t valid30s finite30s
  obtain ⟨actual1min, back1min, same1min⟩ := optionalOutcome_survives p t valid1min finite1min
  obtain ⟨actual5min, back5min, same5min⟩ := optionalOutcome_survives p t valid5min finite5min
  dsimp only at correctionsBack correctionsSame
  simp only [iso, chosenBack, alternativesBack, correctionsBack, back30s, back1min, back5min,
    Option.bind_some] at form
  exact ⟨_, form, ⟨rfl, rfl, rfl, rfl, rfl, rfl, actionForm, chosenSame, alternativesAll,
    correctionsSame, rfl, rfl, same30s, same1min, same5min, rfl, rfl, breachesBack⟩⟩

theorem finite_of_validate_stored {r r' : DecisionRecord} (valid : r.valid p = true)
    (back : validate p c (T r.modelDump) = some r') : r.finite = true := by
  simp only [DecisionRecord.valid, Bool.and_eq_true, decide_eq_true_eq] at valid
  obtain ⟨⟨⟨⟨⟨_, chosenValid⟩, alternativesValid⟩, valid30s⟩, valid1min⟩, valid5min⟩ := valid
  obtain ⟨_, _, _, _, form⟩ := validate_stored_eq p t r
  simp only [form, Option.bind_eq_some_iff] at back
  obtain ⟨_, _, _, chosen, _, alternatives, _, _, _, back30s, _, back1min, _, back5min, _⟩ := back
  have each : r.rejectedAlternatives.all RejectedAlternative.finite = true := by
    rw [List.all_eq_true]
    intro a member
    obtain ⟨a', inner⟩ := readList_some t alternatives a member
    exact alternative_finite p t (List.all_eq_true.mp alternativesValid a member) inner
  simp only [DecisionRecord.finite, Bool.and_eq_true]
  exact ⟨⟨⟨⟨outcome_finite p t chosenValid chosen, each⟩,
    optionalOutcome_finite p t valid30s back30s⟩, optionalOutcome_finite p t valid1min back1min⟩,
    optionalOutcome_finite p t valid5min back5min⟩

end

/-! What comes back is written the same when the store keeps the free-form mappings. -/

theorem sortKeys_kept {T : Value → Value} {d d' : Dict Value} (kept : Keeps T d)
    (form : T (jsonAny (.dict d)) = .dict d') :
    sortKeys (jsonAny (.dict d')) = sortKeys (jsonAny (.dict d)) := by
  rw [← form]
  exact kept

theorem AlternativeBack.same {T : Value → Value} {a a' : RejectedAlternative}
    (back : AlternativeBack T a a') (kept : Keeps T a.action) :
    sortKeys a'.dump = sortKeys a.dump := by
  apply sortKeys_dict_congr
  simp only [RejectedAlternative.items, List.map_cons, List.map_nil, back.rank,
    sortKeys_kept kept back.action, back.outcome, back.reason, back.human, back.seed]

theorem BreachesBack.same {T : Value → Value} {ds ds' : Option (List (Dict Value))}
    (back : BreachesBack T ds ds') (kept : ∀ d ∈ ds.getD [], Keeps T d) :
    sortKeys (jsonOption jsonDicts ds') = sortKeys (jsonOption jsonDicts ds) := by
  cases ds with
  | none =>
    cases ds' with
    | none => rfl
    | some _ => exact back.elim
  | some ds =>
    cases ds' with
    | none => exact back.elim
    | some ds' =>
      exact sortKeys_list_congr (forall₂_of_mem back fun d member _ => sortKeys_kept (kept d member))

theorem RecordBack.same {T : Value → Value} {r r' : DecisionRecord} (back : RecordBack T r r')
    (kept : ∀ d ∈ r.freeForm, Keeps T d) : sortKeys r'.modelDump = sortKeys r.modelDump := by
  have chosen := sortKeys_kept (kept _ List.mem_cons_self) back.chosenAction
  have alternatives := sortKeys_list_congr (forall₂_of_mem back.rejectedAlternatives
    fun a member _ same => same.same (kept _ (List.mem_cons_of_mem _
      (List.mem_append_left _ (List.mem_map_of_mem member)))))
  have breaches := back.slaBreachContext.same fun d member =>
    kept d (List.mem_cons_of_mem _ (List.mem_append_right _ member))
  have actual30s := back.actualOutcome30s
  have actual1min := back.actualOutcome1min
  have actual5min := back.actualOutcome5min
  rw [SameOutcome] at actual30s actual1min actual5min
  apply sortKeys_dict_congr
  simp only [DecisionRecord.items, List.map_cons, List.map_nil, back.decisionId, back.timestamp,
    back.rappInstanceId, back.tenantId, back.stateHash, back.stateBlobUri, chosen,
    back.predictedOutcomeChosen, alternatives, back.constraintCorrections, back.modelVersions,
    back.randomSeed, actual30s, actual1min, actual5min, back.operatorOverride,
    back.operatorOverrideReason, breaches]

/-! A store that only sorts the keys. -/

section
variable (p : Pydantic) (c : Coercions)

theorem validate_settles {r : DecisionRecord} (valid : r.valid p = true)
    (finite : r.finite = true) : ∃ r', validate p c (sortKeys r.modelDump) = some r' ∧
      r'.tenantId = r.tenantId ∧ r'.decisionId = r.decisionId ∧
      sortKeys r'.modelDump = sortKeys r.modelDump := by
  obtain ⟨r', read, back⟩ := validate_stored p (transport_sortKeys c) valid finite
  exact ⟨r', read, back.tenantId, back.decisionId, back.same fun d _ => keeps_sortKeys d⟩

theorem finite_of_validate {r r' : DecisionRecord} (valid : r.valid p = true)
    (back : validate p c (sortKeys r.modelDump) = some r') : r.finite = true :=
  finite_of_validate_stored p (transport_sortKeys c) valid back

end
end HorizonRic.Evidence
