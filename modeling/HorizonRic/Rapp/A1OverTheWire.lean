import HorizonRic.Library.RemoteObject
import HorizonRic.Rapp.OscPolicies
import HorizonRic.Rapp.EmittedCount

/-!
Adapters in the `osc` dialect and the emulated Non-RT RIC, with requests and answers on
a network that delays and loses them. Any number of other clients may be at work; what an
adapter may conclude about one policy needs only that no other write of that policy is
under way or follows.
-/
namespace HorizonRic.OscEmulator

open Py Rapp Evidence RemoteObject

variable {ι : Type} [DecidableEq ι] {py : Interpreter} {js : Jsonschema}

abbrev A1Net (ι : Type) := Net ι OscState Request Response

/-- What the PUT of a policy has ended with, once its caller stops waiting. -/
def putEnded : Heard Response → Option PutOutcome
  | .waiting => none
  | .gaveUp => some (putOutcome none)
  | .answer r => some (putOutcome (some r))

/-- No write of this policy stands on the wire. -/
def Unwritten (id : String) (n : A1Net ι) : Prop :=
  ∀ j req, n.wire j = .requested req → ¬Writes id req

/-- No write of this policy is sent. -/
def Silent (id : String) (events : List (Event ι String Request)) : Prop :=
  ∀ j req, Event.send j req ∈ events → ¬Writes id req

def wire (py : Interpreter) (js : Jsonschema) :
    A1Net ι → List (Event ι String Request) → Option (A1Net ι) :=
  Machine.run (step (serve py js))

/-! A policy and its status come and go together. -/

def Paired (s : OscState) : Prop :=
  ∀ id, s.policies.get? id = none → s.policyStatus.get? id = none

theorem paired_serve (now : String) (req : Request) (s : OscState) (paired : Paired s) :
    Paired (serve py js now req s).2 := by
  unfold serve
  split
  · exact paired
  · exact paired
  · intro id absent
    rw [(putPolicyType_policies _ _ _).1] at absent
    rw [(putPolicyType_policies _ _ _).2]
    exact paired id absent
  · obtain ⟨same, _⟩ | ⟨id', ptype, schema, _, _, _, _, stored, _⟩ :=
      putPolicy_cases py js now req.body s
    · rw [same]
      exact paired
    · rw [stored]
      intro id absent
      by_cases here : id = id'
      · subst here
        rw [Mapping.get?_set_self] at absent
        cases absent
      · rw [Mapping.get?_set_ne _ _ here] at absent ⊢
        exact paired id absent
  · exact paired
  · exact paired
  · exact paired
  · rename_i id' _
    obtain ⟨_, same, _⟩ | ⟨_, popped, _⟩ := deletePolicy_cases id' s
    · rw [same]
      exact paired
    · rw [popped]
      intro id absent
      by_cases here : id = id'
      · subst here
        exact Mapping.get?_pop_self _ _
      · rw [Mapping.get?_pop_ne _ here] at absent ⊢
        exact paired id absent
  · exact paired

/-! One emit and one rollback. -/

section
variable (py : Interpreter) (js : Jsonschema) {a1 : A1Adapter} (osc : a1.cfg.dialect = .osc)
  (policyTypeId : Int) (policyId : String) (payload : Dict Value) (now : String) (s : OscState)

include osc

/-- The policy as the adapter's PUT stores it. -/
theorem serve_put : let put := (a1.policyPut policyTypeId policyId payload).request
    ((serve py js now put s).2 = s ∧ (serve py js now put s).1.success = false) ∨
      (policyAt policyId (serve py js now put s).2 =
          (some ⟨put.body, toString policyTypeId⟩, some (enforcedStatus now)) ∧
        (serve py js now put s).1.success = true) := by
  intro put
  obtain ⟨routed, body⟩ := route_put osc policyTypeId policyId payload
  have served : serve py js now put s = putPolicy s py js now put.body := by
    simp only [serve, put, routed]
  rw [served]
  obtain refused | ⟨id, ptype, schema, named, typed, _, _, stored, done⟩ :=
    putPolicy_cases py js now put.body s
  · exact Or.inl refused
  · right
    simp only [put, body, Dict.get?_cons, if_true, Option.some.injEq, Value.str.injEq] at named
    have typeText : toString policyTypeId = ptype := by
      simp only [put, body] at typed
      exact Except.ok.inj typed
    subst named
    refine ⟨?_, done⟩
    rw [stored, policyAt, typeText]
    simp

omit s policyId in
theorem serve_rollback {policyId : String} {s : OscState} (readable : Readable policyId)
    (paired : s.policies.get? policyId = none → s.policyStatus.get? policyId = none) :
    let req : Request := ⟨.delete, a1.policyInstanceUrl policyTypeId policyId, []⟩
    policyAt policyId (serve py js now req s).2 = (none, none) ∧
      ((serve py js now req s).1.success = true ↔ (s.policies.get? policyId).isSome) := by
  intro req
  have served : serve py js now req s = deletePolicy s policyId := by
    simp only [serve, req, route_rollback osc policyTypeId policyId readable []]
  rw [served]
  obtain ⟨absent, same, refused⟩ | ⟨there, popped, done⟩ := deletePolicy_cases policyId s
  · rw [same, policyAt, absent, paired absent, refused]
    simp
  · rw [popped, policyAt, there, Response.success, done]
    simp

theorem serve_list : let req : Request := ⟨.get, a1.policyListUrl policyTypeId, []⟩
    ∃ ids, listResult py (serve py js now req s).1 = some (.ok ids) ∧
      (.str policyId ∈ ids ↔ ∃ policy, (policyAt policyId s).1 = some policy ∧
        policy.policytypeId = toString policyTypeId) := by
  intro req
  have served : (serve py js now req s).1 = listPolicies s (some (toString policyTypeId)) := by
    simp only [serve, req, route_list osc policyTypeId []]
  obtain ⟨ids, body, shown⟩ :=
    mem_listPolicies (s := s) (int_readable policyTypeId).1 policyId
  refine ⟨ids, ?_, shown⟩
  rw [served, listResult, if_pos (by rfl), body]
  rfl

omit policyId in
theorem serve_status {policyId : String} (readable : Readable policyId) :
    let req : Request := ⟨.get, a1.policyStatusUrl policyTypeId policyId, []⟩
    statusResult (serve py js now req s).1 = (policyAt policyId s).2 := by
  intro req
  have served : (serve py js now req s).1 = getPolicyStatus s policyId := by
    simp only [serve, req, route_status osc policyTypeId policyId readable []]
  rw [served, getPolicyStatus, policyAt]
  cases found : s.policyStatus.get? policyId with
  | none => rfl
  | some status => rfl

end

/-- What an emit ends with shows what its PUT ended with. -/
theorem emitPolicy_put {a1 : A1Adapter} {policyType : String} {policyTypeId : Int}
    (policyId : String) (registered : Dict.get? policyType a1.cfg.policyTypes = some policyTypeId)
    (store : EvidenceSink) (payload : Dict Value) (record : DecisionRecord)
    (certificate : SafetyCertificate) (l : Ledger) :
    match (a1.emitPolicy store policyType payload policyId record certificate l).1 with
    | .ok (_, status) | .error (.evidencePersist _ status) =>
      a1.put (a1.policyPut policyTypeId policyId payload) = .accepted status
    | .error (.httpError status) =>
      a1.put (a1.policyPut policyTypeId policyId payload) = .httpError status
    | _ => True := by
  rw [A1Adapter.emitPolicy, registered]
  dsimp only
  cases a1.refuses certificate with
  | true => trivial
  | false =>
    rw [if_neg Bool.false_ne_true]
    cases ended : a1.put (a1.policyPut policyTypeId policyId payload) with
    | accepted status =>
      dsimp only
      rw [EvidenceSink.append]
      cases store.fails _ <;> rfl
    | httpError status => rfl
    | circuitBreakerError => trivial
    | other e => trivial

theorem putOutcome_some (r : Response) :
    (r.success = true → putOutcome (some r) = .accepted r.status) ∧
      (r.success = false → putOutcome (some r) = .httpError (some r.status)) := by
  constructor
  · intro passed
    exact if_pos passed
  · intro refused
    exact if_neg (by rw [refused]; exact Bool.false_ne_true)

section
variable {a1 : A1Adapter} (osc : a1.cfg.dialect = .osc) {policyTypeId : Int} {policyId : String}
  {payload : Dict Value} {n n' : A1Net ι} {i : ι} {before events : List (Event ι String Request)}
  (reached : wire py js (boot {}) before = some n) (unwritten : Unwritten policyId n)
  (silent : Silent policyId events)

include reached in
theorem heard_answered
    (sent : wire py js n events = some n') {r : Response} (heard : n'.heard i = .answer r) :
    n'.wire i = .answered r := by
  have whole : Machine.run (step (serve py js)) (boot {}) (before ++ events) = some n' := by
    rw [Machine.run_append]
    rw [wire] at reached sent
    rw [reached]
    exact sent
  exact truthful_run whole i r heard

include osc reached unwritten silent in
/-- The PUT of a policy: unchanged and not accepted, or live and not refused. -/
theorem put_settles
    (sent : wire py js n (.send i (a1.policyPut policyTypeId policyId payload).request :: events) =
      some n') :
    (policyAt policyId n'.server = policyAt policyId n.server ∧
      ∀ status, putEnded (n'.heard i) ≠ some (.accepted status)) ∨
    (Live policyId ⟨(a1.policyPut policyTypeId policyId payload).body, toString policyTypeId⟩
        n'.server ∧
      ∀ status, putEnded (n'.heard i) ≠ some (.httpError (some status))) := by
  have settled := settled_send (policyAt policyId) (Writes policyId)
    (fun e q s other => serve_elsewhere other) unwritten silent sent
  have truthful : ∀ r, n'.heard i = .answer r → n'.wire i = .answered r :=
    fun r heard => heard_answered reached sent heard
  obtain ⟨waiting, unchanged⟩ | ⟨now, s, start, answered, view⟩ := settled
  · refine Or.inl ⟨unchanged, fun status accepted => ?_⟩
    cases heard : n'.heard i with
    | waiting => rw [heard] at accepted; cases accepted
    | gaveUp => rw [heard] at accepted; cases accepted
    | answer r =>
      have := truthful r heard
      rw [waiting] at this
      cases this
  · have known : ∀ r, n'.heard i = .answer r → r = (serve py js now
        (a1.policyPut policyTypeId policyId payload).request s).1 := by
      intro r heard
      have same := truthful r heard
      rw [answered] at same
      exact (Wire.answered.inj same).symm
    obtain ⟨same, refused⟩ | ⟨stored, done⟩ :=
      serve_put py js osc policyTypeId policyId payload now s
    · left
      refine ⟨by rw [view, same, start], fun status accepted => ?_⟩
      cases heard : n'.heard i with
      | waiting => rw [heard] at accepted; cases accepted
      | gaveUp => rw [heard] at accepted; cases accepted
      | answer r =>
        rw [heard, putEnded, known r heard, (putOutcome_some _).2 refused] at accepted
        cases accepted
    · right
      refine ⟨⟨now, by rw [view, stored]; rfl⟩, fun status raised => ?_⟩
      cases heard : n'.heard i with
      | waiting => rw [heard] at raised; cases raised
      | gaveUp => rw [heard] at raised; cases raised
      | answer r =>
        rw [heard, putEnded, known r heard, (putOutcome_some _).1 done] at raised
        cases raised

include osc reached unwritten silent in
/-- What `emit_policy` returns or raises tells what became of the policy: it stands if the emit
    returned, audited or not, nothing has changed if the peer refused, and after a transport
    error it is one of the two. -/
theorem emit_settles {policyType : String}
    (registered : Dict.get? policyType a1.cfg.policyTypes = some policyTypeId)
    (store : EvidenceSink) (record : DecisionRecord) (certificate : SafetyCertificate) (l : Ledger)
    (sent : wire py js n (.send i (a1.policyPut policyTypeId policyId payload).request :: events) =
      some n')
    (ended : putEnded (n'.heard i) = some (a1.put (a1.policyPut policyTypeId policyId payload))) :
    let live := Live policyId
      ⟨(a1.policyPut policyTypeId policyId payload).body, toString policyTypeId⟩ n'.server
    let unchanged := policyAt policyId n'.server = policyAt policyId n.server
    match (a1.emitPolicy store policyType payload policyId record certificate l).1 with
    | .ok _ | .error (.evidencePersist ..) => live
    | .error (.httpError (some _)) => unchanged
    | .error (.httpError none) => unchanged ∨ live
    | _ => True := by
  intro live unchanged
  have settles := put_settles osc reached unwritten silent sent
  have shown := emitPolicy_put policyId registered store payload record certificate l
  rw [ended] at settles
  generalize (a1.emitPolicy store policyType payload policyId record certificate l).1 = outcome
    at shown ⊢
  have accepted : ∀ status, a1.put (a1.policyPut policyTypeId policyId payload) =
      .accepted status → live := by
    intro status put
    obtain ⟨_, never⟩ | ⟨stands, _⟩ := settles
    · exact absurd (congrArg some put) (never status)
    · exact stands
  cases outcome with
  | ok answer => exact accepted _ shown
  | error raised =>
    cases raised with
    | evidencePersist id status => exact accepted _ shown
    | httpError status =>
      cases status with
      | none =>
        obtain ⟨same, _⟩ | ⟨stands, _⟩ := settles
        · exact Or.inl same
        · exact Or.inr stands
      | some status =>
        obtain ⟨same, _⟩ | ⟨_, never⟩ := settles
        · exact same
        · exact absurd (congrArg some shown) (never status)
    | circuitBreakerError => trivial
    | other e => trivial

variable {b : A1Adapter} (osc' : b.cfg.dialect = .osc) {n'' : A1Net ι} {j : ι}
  {later : List (Event ι String Request)}

/-- A read writes nothing. -/
theorem get_unwritten (id url : String) (body : Dict Value) : ¬Writes id ⟨.get, url, body⟩ := by
  rintro (⟨routed, _⟩ | routed)
  all_goals
    simp only [route] at routed
    split at routed
    · cases routed
    · split at routed
      · cases routed
      · split at routed
        · cases routed
        · split at routed
          · cases routed
          · obtain ⟨_, _, different⟩ := Option.map_eq_some_iff.mp routed
            cases different

include reached unwritten silent in
/-- A read after the answer to a write is computed where that write has left the policy. -/
theorem read_after {req : Request} {url : String} {r r' : Response}
    (sent : wire py js n (.send i req :: events) = some n') (heard : n'.heard i = .answer r)
    (silent' : Silent policyId later)
    (read : wire py js n' (.send j ⟨.get, url, []⟩ :: later) = some n'')
    (heard' : n''.heard j = .answer r') :
    ∃ now s now' s', policyAt policyId s = policyAt policyId n.server ∧
      r = (serve py js now req s).1 ∧
      policyAt policyId s' = policyAt policyId (serve py js now req s).2 ∧
      r' = (serve py js now' ⟨.get, url, []⟩ s').1 := by
  have middle : wire py js (boot {}) (before ++ .send i req :: events) = some n' := by
    rw [wire, Machine.run_append]
    rw [wire] at reached sent
    rw [reached]
    exact sent
  refine read_settled (policyAt policyId) (Writes policyId)
    (fun e q s other => serve_elsewhere other) unwritten (fun k q member => ?_) sent
    (heard_answered reached sent heard) read (heard_answered middle read heard')
  rcases List.mem_append.mp member with first | last
  · exact silent k q first
  · rcases List.mem_cons.mp last with this | last
    · obtain ⟨_, rfl⟩ := Event.send.inj this
      exact get_unwritten policyId url []
    · exact silent' k q last

include reached in
theorem paired_reached : Paired n.server :=
  server_run Paired (fun _ => True) (fun now req s _ paired => paired_serve now req s paired)
    (fun _ _ => rfl) (fun _ _ _ => trivial) reached

end

/-! A policy of one type that is emitted, listed and rolled back. -/

section

/-- Whoever has the answers to all writes of a policy that were sent knows that none is left. -/
theorem unwritten_of_answered {id : String} {before : List (Event ι String Request)} {n : A1Net ι}
    (reached : wire py js (boot {}) before = some n)
    (answers : ∀ j req, Event.send j req ∈ before → Writes id req → ∃ r, n.heard j = .answer r) :
    Unwritten id n := by
  intro j req requested writes
  obtain ⟨r, heard⟩ := answers j req (sent_of_requested reached requested) writes
  have same := truthful_run reached j r heard
  rw [requested] at same
  cases same

def sampleAdapter : A1Adapter where
  cfg := { dialect := .osc }
  put _ := .accepted 201

theorem sample_osc : sampleAdapter.cfg.dialect = .osc := rfl

def lenient : Jsonschema := ⟨fun _ _ => .ok ()⟩

def sampleTypeSchema : Dict Value := [("create_schema", .dict [("type", .str "object")])]

def typeRegistered : List (Event ℕ String Request) :=
  [.send 0 ⟨.put, sampleAdapter.policyTypeUrl 20001, sampleTypeSchema⟩, .handle 0 "t0"]

def heardStatus : Heard Response → Option Int
  | .answer r => some r.status
  | _ => none

theorem typeRegistered_silent (id : String) : Silent id typeRegistered := by
  intro j req sent
  simp only [typeRegistered, List.mem_cons, Event.send.injEq, reduceCtorEq, List.not_mem_nil,
    or_false] at sent
  obtain ⟨_, rfl⟩ := sent
  have routed := route_register sample_osc 20001 sampleTypeSchema
  rintro (⟨put, _⟩ | delete)
  · rw [routed] at put
    cases put
  · rw [routed] at delete
    cases delete

def samplePut : Request := (sampleAdapter.policyPut 20001 "a-1" []).request

def sampleRollback : Request := ⟨.delete, sampleAdapter.policyInstanceUrl 20002 "a-1", []⟩

def sampleList : Request := ⟨.get, sampleAdapter.policyListUrl 20001, []⟩

/-- Calls one after the other, each handled and answered. -/
def answered (i : ℕ) : List (Event ℕ String Request) := [.handle i "t", .deliver i]

/-- Three stages of a run, with the status that a caller has heard at the end of each. -/
def stages (before : List (Event ℕ String Request)) (first second : Request) :
    Option (Option Int × Option Int × Option Int) :=
  (wire plainInterpreter lenient (boot {}) before).bind fun n =>
    (wire plainInterpreter lenient n (.send 2 first :: answered 2)).bind fun n' =>
      (wire plainInterpreter lenient n' (.send 3 second :: answered 3)).map fun n'' =>
        (heardStatus (n.heard 1), heardStatus (n'.heard 2), heardStatus (n''.heard 3))

theorem heardStatus_some {h : Heard Response} {code : Int} (known : heardStatus h = some code) :
    ∃ r, h = .answer r ∧ r.status = code := by
  cases h with
  | answer r => exact ⟨r, rfl, Option.some.inj known⟩
  | waiting => cases known
  | gaveUp => cases known

theorem stages_run (before : List (Event ℕ String Request)) (first second : Request)
    (earlier : Option Int) (status status' : Int)
    (done : stages before first second = some (earlier, some status, some status')) :
    ∃ n n' n'' r r', wire plainInterpreter lenient (boot {}) before = some n ∧
      wire plainInterpreter lenient n (.send 2 first :: answered 2) = some n' ∧
      wire plainInterpreter lenient n' (.send 3 second :: answered 3) = some n'' ∧
      heardStatus (n.heard 1) = earlier ∧ n'.heard 2 = .answer r ∧ r.status = status ∧
      n''.heard 3 = .answer r' := by
  obtain ⟨n, start, done⟩ := Option.bind_eq_some_iff.mp done
  obtain ⟨n', middle, done⟩ := Option.bind_eq_some_iff.mp done
  obtain ⟨n'', finish, done⟩ := Option.map_eq_some_iff.mp done
  obtain ⟨earlier_, later⟩ := Prod.mk.inj done
  obtain ⟨first_, second_⟩ := Prod.mk.inj later
  obtain ⟨r, answer, code⟩ := heardStatus_some first_
  obtain ⟨r', answer', _⟩ := heardStatus_some second_
  exact ⟨n, n', n'', r, r', start, middle, finish, earlier_, answer, code, answer'⟩

theorem answered_silent (id : String) (i : ℕ) : Silent id (answered i) := by
  intro j req sent
  simp [answered] at sent

theorem sample_unwritten {n : A1Net ℕ}
    (start : wire plainInterpreter lenient (boot {}) typeRegistered = some n) :
    Unwritten "a-1" n :=
  unwritten_of_answered start fun j req sent writes =>
    absurd writes (typeRegistered_silent "a-1" j req sent)

/-- The policy is there, and its emit has been answered. -/
def policyEmitted : List (Event ℕ String Request) :=
  typeRegistered ++ .send 1 samplePut :: answered 1

theorem emitted_unwritten {n : A1Net ℕ}
    (start : wire plainInterpreter lenient (boot {}) policyEmitted = some n)
    (heard : heardStatus (n.heard 1) = some 201) : Unwritten "a-1" n := by
  refine unwritten_of_answered start fun j req sent writes => ?_
  rcases List.mem_append.mp sent with first | last
  · exact absurd writes (typeRegistered_silent "a-1" j req first)
  · rcases List.mem_cons.mp last with put | other
    · obtain ⟨rfl, _⟩ := Event.send.inj put
      obtain ⟨r, answer, _⟩ := heardStatus_some heard
      exact ⟨r, answer⟩
    · exact absurd writes (answered_silent "a-1" 1 j req other)

theorem putEnded_accepted {h : Heard Response} {r : Response} (heard : h = .answer r)
    (status : r.status = 201) : putEnded h = some (.accepted 201) := by
  have passed : r.success = true := by rw [Response.success, status]; rfl
  rw [heard, putEnded, (putOutcome_some r).1 passed, status]

theorem emit_settles_accepted : ∃ n' : A1Net ℕ,
    Live "a-1" ⟨(sampleAdapter.policyPut 20001 "a-1" []).body, "20001"⟩ n'.server := by
  obtain ⟨n, n', _, r, _, start, sent, _, _, heard, status, _⟩ :=
    stages_run typeRegistered samplePut sampleList none 201 200 (by decide +kernel)
  exact ⟨n', emit_settles sample_osc start (sample_unwritten start) (answered_silent "a-1" 2)
    (show Dict.get? "horizon.qos.priority" _ = some 20001 from rfl) {}
    (sampleRecord (.fin 0) "dec-1" none) (sampleCertificate 1) {} sent
    (putEnded_accepted heard status)⟩

theorem sample_readable : Readable "a-1" :=
  readable_of_all (by decide) (by decide +kernel)

end

end HorizonRic.OscEmulator
