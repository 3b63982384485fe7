import HorizonRic.Rapp.A1OverTheWire
import HorizonRic.Rapp.StatusPolling

/-!
Planner and emulated Non-RT RIC together. When the policy types are registered by an
adapter, every policy that stands conforms to the schema of its type, and the planner's
payloads are never refused; the status that the emulator reports is not one that the
planner's poll takes for an enforcement.
-/
namespace HorizonRic.OscEmulator

open Py Io Rapp Evidence RemoteObject

variable {ι : Type} [DecidableEq ι] {py : Interpreter} {js : Jsonschema}

/-- The type stands for a name that the adapter registers, with the schema of that name. -/
def Registered (a1 : A1Adapter) (policytypeId : String) (document : Value) : Prop :=
  ∃ policyType typeId schema, Dict.get? policyType a1.cfg.policyTypes = some typeId ∧
    policytypeId = toString typeId ∧ policyCreateSchema policyType = .ok schema ∧
    document = schema.document

/-- A registration is one that the adapter sends. -/
def Registers (a1 : A1Adapter) (req : Request) : Prop :=
  ∀ policytypeId, route req = some (.putPolicyType policytypeId) →
    ∃ policyType spec, a1.registerRequest policyType spec = .ok req

/-- Types are known with the adapter's schemas, and policies conform to them. -/
structure Conforming (a1 : A1Adapter) (s : OscState) : Prop where
  types : ∀ t document, s.policyTypes.get? t = some document → Registered a1 t document
  policies : ∀ id policy, s.policies.get? id = some policy → ∃ schema : CreateSchema,
    Registered a1 policy.policytypeId schema.document ∧
    schema.valid (Dict.getD policy.body "policy_data" .null) = true

section
variable {a1 : A1Adapter}

theorem registerRequest_served (py : Interpreter) (js : Jsonschema)
    (osc : a1.cfg.dialect = .osc) {policyType : String} {spec : PolicyTypeSpec} {req : Request}
    (sent : a1.registerRequest policyType spec = .ok req) (now : String) (s : OscState) :
    ∃ t document, Registered a1 t document ∧ (serve py js now req s).2.policies = s.policies ∧
      (serve py js now req s).2.policyTypes = s.policyTypes.set t document := by
  rw [A1Adapter.registerRequest] at sent
  cases known : Dict.get? policyType a1.cfg.policyTypes with
  | none =>
    rw [known] at sent
    cases sent
  | some typeId =>
    simp only [known] at sent
    obtain ⟨schema, created, sent⟩ := bind_eq_ok sent
    cases sent
    refine ⟨toString typeId, schema.document, ⟨policyType, typeId, schema, known, rfl, created, rfl⟩,
      ?_⟩
    simp only [serve, route_register osc typeId]
    exact ⟨rfl, rfl⟩

theorem conforming_put (decided : SchemasDecided js) (now : String) (body : Dict Value)
    {s : OscState} (conforming : Conforming a1 s) :
    Conforming a1 (putPolicy s py js now body).2 := by
  obtain ⟨types, policies⟩ := conforming
  obtain ⟨same, _⟩ | ⟨id', ptype, document, _, _, known, valid, stored, _⟩ :=
    putPolicy_cases py js now body s
  · rw [same]
    exact ⟨types, policies⟩
  · rw [stored]
    refine ⟨types, fun id policy found => ?_⟩
    by_cases here : id = id'
    · subst here
      rw [Mapping.get?_set_self] at found
      cases found
      obtain ⟨policyType, typeId, schema, listed, text, created, rfl⟩ := types ptype document known
      exact ⟨schema, ⟨policyType, typeId, schema, listed, text, created, rfl⟩,
        (decided _ _ _ created).mp valid⟩
    · rw [Mapping.get?_set_ne _ _ here] at found
      exact policies id policy found

theorem conforming_delete (id' : String) {s : OscState} (conforming : Conforming a1 s) :
    Conforming a1 (deletePolicy s id').2 := by
  obtain ⟨types, policies⟩ := conforming
  obtain ⟨_, same, _⟩ | ⟨_, popped, _⟩ := deletePolicy_cases id' s
  · rw [same]
    exact ⟨types, policies⟩
  · rw [popped]
    refine ⟨types, fun id policy found => ?_⟩
    by_cases here : id = id'
    · subst here
      rw [Mapping.get?_pop_self] at found
      cases found
    · rw [Mapping.get?_pop_ne _ here] at found
      exact policies id policy found

theorem conforming_empty : Conforming a1 {} where
  types t document found := by cases found
  policies id policy found := by cases found

variable (osc : a1.cfg.dialect = .osc)
include osc

/-- One request keeps the types and the policies in order. -/
theorem conforming_serve (decided : SchemasDecided js) (now : String) (req : Request) (s : OscState)
    (registers : Registers a1 req) (conforming : Conforming a1 s) :
    Conforming a1 (serve py js now req s).2 := by
  cases routed : route req with
  | none =>
    simp only [serve, routed]
    exact conforming
  | some destination =>
    cases destination with
    | putPolicyType policytypeId =>
      obtain ⟨policyType, spec, sent⟩ := registers policytypeId routed
      obtain ⟨t, document, registered, policies, types⟩ :=
        registerRequest_served py js osc sent now s
      refine ⟨fun t' document' known => ?_, ?_⟩
      · rw [types] at known
        by_cases here : t' = t
        · subst here
          rw [Mapping.get?_set_self] at known
          cases known
          exact registered
        · rw [Mapping.get?_set_ne _ _ here] at known
          exact conforming.types t' document' known
      · rw [policies]
        exact conforming.policies
    | putPolicy =>
      simp only [serve, routed]
      exact conforming_put decided now req.body conforming
    | deletePolicy policyId =>
      simp only [serve, routed]
      exact conforming_delete policyId conforming
    | listPolicyTypes | getPolicyType | listPolicies | getPolicy | getPolicyStatus =>
      simp only [serve, routed]
      exact conforming

/-- Whatever else clients send, every policy that stands conforms to a schema that the adapter
    registers for its type. -/
theorem policies_conform (decided : SchemasDecided js) {events : List (Event ι String Request)}
    {n : A1Net ι} (registers : ∀ i req, .send i req ∈ events → Registers a1 req)
    (reached : wire py js (boot {}) events = some n) : Conforming a1 n.server :=
  server_run (Conforming a1) (Registers a1)
    (fun now req s sound kept => conforming_serve osc decided now req s sound kept)
    conforming_empty registers reached

end

/-! What the planner's poll makes of the emulator's status. -/

def Enforced (s : OscState) : Prop :=
  ∀ id status, s.policyStatus.get? id = some status → ∃ now, status = enforcedStatus now

theorem enforced_serve (now : String) (req : Request) (s : OscState) (enforced : Enforced s) :
    Enforced (serve py js now req s).2 := by
  unfold serve
  split
  · exact enforced
  · exact enforced
  · intro id status found
    rw [(putPolicyType_policies _ _ _).2] at found
    exact enforced id status found
  · obtain ⟨same, _⟩ | ⟨id', ptype, schema, _, _, _, _, stored, _⟩ :=
      putPolicy_cases py js now req.body s
    · rw [same]
      exact enforced
    · rw [stored]
      intro id status found
      by_cases here : id = id'
      · subst here
        rw [Mapping.get?_set_self] at found
        cases found
        exact ⟨now, rfl⟩
      · rw [Mapping.get?_set_ne _ _ here] at found
        exact enforced id status found
  · exact enforced
  · exact enforced
  · exact enforced
  · rename_i id' _
    obtain ⟨_, same, _⟩ | ⟨_, popped, _⟩ := deletePolicy_cases id' s
    · rw [same]
      exact enforced
    · rw [popped]
      intro id status found
      by_cases here : id = id'
      · subst here
        rw [Mapping.get?_pop_self] at found
        cases found
      · rw [Mapping.get?_pop_ne _ here] at found
        exact enforced id status found
  · exact enforced

theorem enforced_reached {events : List (Event ι String Request)} {n : A1Net ι}
    (reached : wire py js (boot {}) events = some n) : Enforced n.server :=
  server_run Enforced (fun _ => True) (fun now req s _ kept => enforced_serve now req s kept)
    (fun _ _ found => by cases found) (fun _ _ _ => trivial) reached

/-- `get_policy_status` of an answer; without one it is a transport error. -/
def statusAnswer : Option Response → Except StatusError Value
  | none => .error .httpError
  | some r =>
    match statusResult r with
    | some body => .ok body
    | none => .error .httpError

/-- The poll takes the whole inner object for the status, and its text is not a known one. -/
theorem readStatus_enforced (py : Interpreter) (now : String) :
    ∃ text, readStatus py (.ok (enforcedStatus now)) = .ok (some text) ∧
      text ∉ enforcedStates := by
  have text : (Value.dict [("enforceStatus", .str "ENFORCED")]).toStr py =
      .ok ("\x7b" ++ (py.strRepr "enforceStatus" ++ ": " ++ py.strRepr "ENFORCED") ++ "\x7d") := rfl
  have reported : reportedStatus [("last_modified", .str now),
      ("status", .dict [("enforceStatus", .str "ENFORCED")])] =
        .dict [("enforceStatus", .str "ENFORCED")] := rfl
  obtain ⟨empty, _⟩ | ⟨_, read⟩ := readStatus_dict py [("last_modified", .str now),
    ("status", .dict [("enforceStatus", .str "ENFORCED")])]
  · rw [reported] at empty
    cases empty
  rw [reported, text, ok_bind] at read
  refine ⟨_, read, fun known => ?_⟩
  have heads : ∀ state ∈ enforcedStates, state.toList.head? ≠ some '\x7b' := by decide +kernel
  apply heads _ known
  have brace : "\x7b" = String.ofList ['\x7b'] := by decide +kernel
  rw [brace]
  simp only [String.toList_append, String.toList_ofList]
  rfl

namespace DecisionPipeline

/-- A poll whose every answer is absent or the emulator's never ends in an enforcement. -/
theorem pollFrom_unseen (pl : Rapp.DecisionPipeline) {statuses : ℕ → Except StatusError Value}
    (answers : ∀ k, statuses k = .error .httpError ∨ ∃ now, statuses k = .ok (enforcedStatus now))
    (left n : ℕ) (last : Option String × Option Bool) (unseen : last.2 ≠ some true) :
    ∃ out, pl.pollFrom statuses left n last = .ok out ∧ out.2 ≠ some true ∧
      ((last.2 = some false ∨ ∃ k, n ≤ k ∧ k < n + left ∧ statuses k ≠ .error .httpError) →
        out.2 = some false) := by
  induction left generalizing n last with
  | zero =>
    refine ⟨last, rfl, unseen, ?_⟩
    rintro (already | ⟨k, low, high, _⟩)
    · exact already
    · omega
  | succ left ih =>
    rw [pl.pollFrom_succ]
    rcases answers n with silent | ⟨now, answered⟩
    · obtain ⟨out, ended, notTrue, isFalse⟩ := ih (n + 1) last unseen
      refine ⟨out, ?_, notTrue, fun why => isFalse ?_⟩
      · rw [silent]
        exact ended
      · rcases why with already | ⟨k, low, high, heard⟩
        · exact Or.inl already
        · refine Or.inr ⟨k, ?_, by omega, heard⟩
          rcases Nat.eq_or_lt_of_le low with rfl | later
          · exact absurd silent heard
          · exact later
    · obtain ⟨text, read, unknown⟩ := readStatus_enforced pl.env.py now
      obtain ⟨out, ended, notTrue, isFalse⟩ := ih (n + 1) (some text, some false) (by simp)
      refine ⟨out, ?_, notTrue, fun _ => isFalse (Or.inl rfl)⟩
      rw [answered, read, ok_bind]
      simp only [if_neg unknown]
      exact ended

end DecisionPipeline

/-- A policy that the emulator reports as enforced is reported by the planner as accepted but not
    enforced, as soon as one poll is answered. -/
theorem enforcement_unseen (pl : Rapp.DecisionPipeline) (osc : pl.a1.cfg.dialect = .osc)
    (m : Moment) (event : TelemetryEvent) (l : Ledger) {policyId : String}
    (live : pl.liveId m event l = some policyId) (readable : Readable policyId)
    (policyTypeId : ℤ)
    (polled : ∀ k, m.statuses k = statusAnswer none ∨ ∃ events now, ∃ n : A1Net ι,
      wire py js (boot {}) events = some n ∧ m.statuses k = statusAnswer (some
        (serve py js now ⟨.get, pl.a1.policyStatusUrl policyTypeId policyId, []⟩ n.server).1)) :
    ∃ r, (pl.processEvent m event l).1 = .ok r ∧ r.accepted = true ∧
      r.policyId = some policyId ∧ r.enforced ≠ some true ∧
      ((∃ k < (max 1 pl.cfg.statusPollAttempts).toNat, m.statuses k ≠ .error .httpError) →
        r.enforced = some false) := by
  have answers : ∀ k, m.statuses k = .error .httpError ∨
      ∃ now, m.statuses k = .ok (enforcedStatus now) := by
    intro k
    rcases polled k with silent | ⟨events, now, n, reached, answered⟩
    · exact Or.inl silent
    · rw [answered, statusAnswer, serve_status py js osc policyTypeId now n.server readable]
      cases found : (policyAt policyId n.server).2 with
      | none => exact Or.inl rfl
      | some status =>
        obtain ⟨now', rfl⟩ := enforced_reached reached policyId status found
        exact Or.inr ⟨now', rfl⟩
  obtain ⟨d, status, persistFailed, after, goesOn⟩ := DecisionPipeline.processEvent_of_live live
  obtain ⟨out, ended, notTrue, isFalse⟩ := DecisionPipeline.pollFrom_unseen pl answers
    (max 1 pl.cfg.statusPollAttempts).toNat 0 (none, none) (by simp)
  rw [goesOn, Rapp.DecisionPipeline.accepted, Rapp.DecisionPipeline.pollEnforcement, ended]
  refine ⟨_, rfl, rfl, rfl, notTrue, ?_⟩
  rintro ⟨k, within, heard⟩
  exact isFalse (Or.inr ⟨k, Nat.zero_le k, by omega, heard⟩)

/-! A validator for the four types, and one planned policy. -/

/-- The schema whose second property has this name. -/
def schemaOf : Value → Except PyErr CreateSchema
  | .dict (_ :: _ :: (_, .dict (_ :: (key, _) :: _)) :: _) =>
    if key = "qos_objectives" then policyCreateSchema "horizon.qos.priority"
    else if key = "steering_objectives" then policyCreateSchema "horizon.traffic.steering"
    else if key = "admission" then policyCreateSchema "horizon.admission.control"
    else policyCreateSchema "horizon.spectrum.reservation"
  | _ => .error .valueError

def fourSchemas : Jsonschema where
  validate v document :=
    match schemaOf document with
    | .ok schema => if schema.valid v then .ok () else .error "invalid"
    | .error _ => .error "unknown"

theorem schemaOf_document {policyType : String} {schema : CreateSchema}
    (created : policyCreateSchema policyType = .ok schema) :
    schemaOf schema.document = .ok schema := by
  unfold policyCreateSchema at created
  split_ifs at created
  all_goals
    cases created
    rfl

theorem fourSchemas_decided : SchemasDecided fourSchemas := by
  intro policyType schema v created
  simp only [fourSchemas, schemaOf_document created]
  split <;> simp_all

def qosSpec : PolicyTypeSpec := Dict.getD defaultPolicyTypes "horizon.qos.priority" ⟨"", "", ""⟩

def qosRegistration : Request :=
  match sampleAdapter.registerRequest "horizon.qos.priority" qosSpec with
  | .ok req => req
  | .error _ => ⟨.get, "", []⟩

def qosPayload : Dict Value :=
  [("scope", .dict [("slice_id", .str "slice-1")]),
    ("qos_objectives", .dict [("priority", .int 5)])]

def qosCalls : List (Event ℕ String Request) :=
  [.send 0 qosRegistration, .handle 0 "t0",
    .send 1 (sampleAdapter.policyPut 20001 "p-1" qosPayload).request, .handle 1 "t1"]

theorem qosCalls_register (i : ℕ) (req : Request) (sent : Event.send i req ∈ qosCalls) :
    Registers sampleAdapter req := by
  simp only [qosCalls, List.mem_cons, Event.send.injEq, reduceCtorEq, List.not_mem_nil, or_false,
    false_or] at sent
  obtain ⟨_, rfl⟩ | ⟨_, rfl⟩ := sent
  · exact fun _ _ => ⟨"horizon.qos.priority", qosSpec, rfl⟩
  · intro policytypeId routed
    rw [(route_put sample_osc 20001 "p-1" qosPayload).1] at routed
    cases routed

theorem qosCalls_run : ∃ n, wire plainInterpreter fourSchemas (boot {}) qosCalls = some n ∧
    (n.server.policies.get? "p-1").isSome ∧ (n.server.policyStatus.get? "p-1").isSome ∧
    (n.server.policyTypes.get? "20001").isSome := by
  have done : (wire plainInterpreter fourSchemas (boot {}) qosCalls).map (fun n =>
      decide ((n.server.policies.get? "p-1").isSome ∧ (n.server.policyStatus.get? "p-1").isSome ∧
        (n.server.policyTypes.get? "20001").isSome)) = some true := by
    decide +kernel
  obtain ⟨n, reached, all⟩ := Option.map_eq_some_iff.mp done
  exact ⟨n, reached, of_decide_eq_true all⟩

theorem policies_conform_sample : ∃ s, (s.policies.get? "p-1").isSome ∧
    Conforming sampleAdapter s := by
  obtain ⟨n, reached, stands, _⟩ := qosCalls_run
  exact ⟨n.server, stands,
    policies_conform sample_osc fourSchemas_decided qosCalls_register reached⟩

theorem sample_distinct : ∀ name name' id,
    Dict.get? name sampleAdapter.cfg.policyTypes = some id →
      Dict.get? name' sampleAdapter.cfg.policyTypes = some id → name = name' := by
  intro name name' id first second
  have listed := Dict.mem_of_get? first
  have listed' := Dict.mem_of_get? second
  simp only [sampleAdapter, List.mem_cons, Prod.mk.injEq, List.not_mem_nil, or_false]
    at listed listed'
  rcases listed with ⟨rfl, rfl⟩ | ⟨rfl, rfl⟩ | ⟨rfl, rfl⟩ | ⟨rfl, rfl⟩ <;>
    simpa [eq_comm] using listed'

def oscPipeline : Rapp.DecisionPipeline := { samplePipeline with a1 := sampleAdapter }

theorem liveId_statuses (pl : Rapp.DecisionPipeline) (m : Moment)
    (statuses : ℕ → Except StatusError Value) (event : TelemetryEvent) (l : Ledger) :
    pl.liveId { m with statuses := statuses } event l = pl.liveId m event l := rfl

theorem osc_live : oscPipeline.liveId sampleMoment sampleEvent {} = some "p-1" := by
  decide +kernel

theorem enforcement_unseen_sample : ∃ m r,
    (oscPipeline.processEvent m sampleEvent {}).1 = .ok r ∧ r.accepted = true ∧
      r.enforced = some false := by
  obtain ⟨n, reached, _, reported, _⟩ := qosCalls_run
  have readable : Readable "p-1" := readable_of_all (by decide) (by decide +kernel)
  obtain ⟨status, found⟩ := Option.isSome_iff_exists.mp reported
  have read := serve_status plainInterpreter fourSchemas sample_osc 20001 "t2" n.server readable
  rw [policyAt, found] at read
  have heard : statusAnswer (some (serve plainInterpreter fourSchemas "t2"
      ⟨.get, sampleAdapter.policyStatusUrl 20001 "p-1", []⟩ n.server).1) = .ok status := by
    rw [statusAnswer, read]
  have live := (liveId_statuses oscPipeline sampleMoment (fun _ => .ok status) sampleEvent {}).trans
    osc_live
  obtain ⟨r, done, accepted, _, _, unseen⟩ := enforcement_unseen oscPipeline sample_osc _
    sampleEvent {} live readable 20001 fun _ => Or.inr ⟨qosCalls, "t2", n, reached, heard.symm⟩
  exact ⟨_, r, done, accepted, unseen ⟨0, by decide, by simp⟩⟩

end HorizonRic.OscEmulator
