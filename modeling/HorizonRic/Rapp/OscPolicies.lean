import HorizonRic.Rapp.OscEmulator

/-!
Where the adapter's requests arrive at the emulated Non-RT RIC in the `osc` dialect, and
what each of them does to one policy.
-/
namespace HorizonRic.OscEmulator

open Py Rapp

/-- Characters that a URL carries as they are; a UUID has no others. -/
def Readable (id : String) : Prop :=
  id ≠ "" ∧ ∀ c ∈ id.toList, c.isAlphanum = true ∨ c = '-' ∨ c = '_'

theorem readable_of_all {id : String} (some_ : id ≠ "")
    (all : (id.toList.all fun c => c.isAlphanum || c == '-' || c == '_') = true) :
    Readable id := by
  refine ⟨some_, fun c member => ?_⟩
  simpa [or_assoc] using List.all_eq_true.mp all c member

/-! Paths are compared by their characters. -/

theorem policiesPath_chars : policiesPath =
    ['/', 'a', '1', '-', 'p', 'o', 'l', 'i', 'c', 'y', '/', 'v', '2', '/',
      'p', 'o', 'l', 'i', 'c', 'i', 'e', 's'] := by
  decide +kernel

theorem policyTypesPath_chars : policyTypesPath =
    ['/', 'a', '1', '-', 'p', 'o', 'l', 'i', 'c', 'y', '/', 'v', '2', '/',
      'p', 'o', 'l', 'i', 'c', 'y', '-', 't', 'y', 'p', 'e', 's'] := by
  decide +kernel

theorem statusPath_chars : statusPath = ['/', 's', 't', 'a', 't', 'u', 's'] := by
  decide +kernel

theorem policies_url : "/a1-policy/v2/policies" = String.ofList policiesPath := by
  decide +kernel

theorem policies_slash : "/a1-policy/v2/policies/" = String.ofList (policiesPath ++ ['/']) := by
  decide +kernel

theorem policyTypes_slash :
    "/a1-policy/v2/policy-types/" = String.ofList (policyTypesPath ++ ['/']) := by
  decide +kernel

theorem policies_query : "/a1-policy/v2/policies?policytype_id=" =
    String.ofList (policiesPath ++ '?' :: ("policytype_id".toList ++ ['='])) := by
  decide +kernel

theorem status_suffix : "/status" = String.ofList statusPath := by
  decide +kernel

theorem readable_clean {id : String} (readable : Readable id) :
    id.toList ≠ [] ∧ '/' ∉ id.toList ∧ '?' ∉ id.toList := by
  refine ⟨?_, fun slash => ?_, fun mark => ?_⟩
  · intro empty
    exact readable.1 (String.toList_eq_nil_iff.mp empty)
  · exact absurd (readable.2 _ slash) (by decide)
  · exact absurd (readable.2 _ mark) (by decide)

/-- The text of an integer has digits and a sign only. -/
theorem int_readable (n : Int) : Readable (toString n) := by
  obtain ⟨minus, whole, text, sign, digits, _⟩ := Json.int_text n
  obtain ⟨c, tail, shape, _⟩ := Json.wholeDigits_head digits
  constructor
  · intro empty
    rw [empty, shape] at text
    rcases sign with rfl | rfl <;> cases text
  · rw [text]
    intro c member
    rcases List.mem_append.mp member with first | rest
    · rcases sign with rfl | rfl
      · cases first
      · exact Or.inr (Or.inl (List.mem_singleton.mp first))
    · have digit : c.isDigit = true := by
        rcases digits with rfl | ⟨_, _, _, _, all⟩
        · rw [List.mem_singleton.mp rest]
          rfl
        · exact all c rest
      exact Or.inl (by simp [Char.isAlphanum, digit])

/-! The five requests of the adapter. -/

section
variable {before value : List Char}

theorem pathParam_append (before after : List Char) (some_ : value ≠ []) (clean : '/' ∉ value) :
    pathParam before after (before ++ (value ++ after)) = some (String.ofList value) := by
  have front : (before ++ (value ++ after)).dropPrefix? before = some (value ++ after) :=
    List.dropPrefix?_append_of_beq _ (beq_self_eq_true before)
  have back : (value ++ after).dropSuffix? after = some value :=
    List.dropSuffix?_eq_some_iff.mpr ⟨after, rfl, beq_self_eq_true after⟩
  simp only [pathParam, front, back]
  exact if_pos ⟨some_, clean⟩

theorem pathParam_slash (inside : '/' ∈ value) : pathParam before [] (before ++ value) = none := by
  have front : (before ++ value).dropPrefix? before = some value :=
    List.dropPrefix?_append_of_beq _ (beq_self_eq_true before)
  simp only [pathParam, front, List.dropSuffix?_nil]
  exact if_neg fun parts => parts.2 inside

theorem path_plain (clean : '?' ∉ value) : value.takeWhile (· ≠ '?') = value := by
  rw [List.takeWhile_eq_self_iff]
  intro c member
  have other : c ≠ '?' := by
    rintro rfl
    exact clean member
  simp [other]

theorem path_query (query : List Char) (clean : '?' ∉ value) :
    (value ++ '?' :: query).takeWhile (· ≠ '?') = value ∧
      ((value ++ '?' :: query).dropWhile (· ≠ '?')).drop 1 = query := by
  induction value with
  | nil => exact ⟨rfl, rfl⟩
  | cons c rest ih =>
    rw [List.mem_cons, not_or] at clean
    have other : c ≠ '?' := fun same => clean.1 same.symm
    obtain ⟨path, tail⟩ := ih clean.2
    simp [other] at path tail ⊢
    exact ⟨path, tail⟩

theorem queryParam_single {name text : String} (named : ∀ c ∈ name.toList, c ≠ '=' ∧ c ≠ '&')
    (clean : '&' ∉ text.toList) :
    queryParam name (name.toList ++ '=' :: text.toList) = some text := by
  have whole : (name.toList ++ '=' :: text.toList).splitOn '&' =
      [name.toList ++ '=' :: text.toList] := by
    apply List.splitOn_eq_singleton
    rw [List.mem_append, List.mem_cons, not_or, not_or]
    exact ⟨fun member => (named _ member).2 rfl, by decide, clean⟩
  have key : (name.toList ++ '=' :: text.toList).takeWhile (· ≠ '=') = name.toList := by
    rw [List.takeWhile_append_of_pos fun c member => by simpa using (named c member).1]
    simp
  have value : (name.toList ++ '=' :: text.toList).dropWhile (· ≠ '=') = '=' :: text.toList := by
    rw [List.dropWhile_append_of_pos fun c member => by simpa using (named c member).1]
    simp
  simp only [queryParam, whole]
  rw [List.filter_cons_of_pos (by simpa using key)]
  simp only [List.filter_nil, List.getLast?_singleton, Option.map_some, value]
  simp

end

section
variable {a1 : A1Adapter} (osc : a1.cfg.dialect = .osc) (policyTypeId : Int) (policyId : String)
  (readable : Readable policyId) (body : Dict Value)

include osc

theorem route_put (payload : Dict Value) :
    route (a1.policyPut policyTypeId policyId payload).request = some .putPolicy ∧
      (a1.policyPut policyTypeId policyId payload).request.body =
        [("policy_id", .str policyId), ("policytype_id", .str (toString policyTypeId)),
          ("ric_id", .str a1.cfg.oscRicId), ("service_id", .str a1.cfg.oscServiceId),
          ("transient", .bool false), ("policy_data", .dict payload)] := by
  have plain : policiesPath.takeWhile (· ≠ '?') = policiesPath := by
    apply path_plain
    rw [policiesPath_chars]
    decide
  simp only [A1Adapter.policyPut, A1Adapter.policyCreateUrl, osc, PolicyPut.request, and_true]
  rw [policies_url, route]
  simp only [String.toList_ofList, plain, if_true]

theorem route_register : route ⟨.put, a1.policyTypeUrl policyTypeId, body⟩ =
    some (.putPolicyType (toString policyTypeId)) := by
  obtain ⟨some_, slash, mark⟩ := readable_clean (int_readable policyTypeId)
  have url : (a1.policyTypeUrl policyTypeId).toList =
      (policyTypesPath ++ ['/']) ++ (toString policyTypeId).toList := by
    simp only [A1Adapter.policyTypeUrl, osc]
    rw [policyTypes_slash]
    simp only [toString, String.toList_append, String.toList_ofList]
  have plain : (a1.policyTypeUrl policyTypeId).toList.takeWhile (· ≠ '?') =
      (policyTypesPath ++ ['/']) ++ (toString policyTypeId).toList := by
    rw [url]
    apply path_plain
    rw [List.mem_append, not_or]
    refine ⟨?_, mark⟩
    rw [policyTypesPath_chars]
    decide
  have other : (policyTypesPath ++ ['/']) ++ (toString policyTypeId).toList ≠ policiesPath := by
    rw [policyTypesPath_chars, policiesPath_chars]
    simp
  have param := pathParam_append (policyTypesPath ++ ['/']) [] some_ slash
  rw [List.append_nil] at param
  simp only [route, plain, if_neg other, param, Option.map_some, String.ofList_toList]

include readable

theorem route_rollback : route ⟨.delete, a1.policyInstanceUrl policyTypeId policyId, body⟩ =
    some (.deletePolicy policyId) := by
  obtain ⟨some_, slash, mark⟩ := readable_clean readable
  have url : (a1.policyInstanceUrl policyTypeId policyId).toList =
      (policiesPath ++ ['/']) ++ policyId.toList := by
    simp only [A1Adapter.policyInstanceUrl, osc]
    rw [policies_slash]
    simp only [toString, String.toList_append, String.toList_ofList]
  have plain : (a1.policyInstanceUrl policyTypeId policyId).toList.takeWhile (· ≠ '?') =
      (policiesPath ++ ['/']) ++ policyId.toList := by
    rw [url]
    apply path_plain
    rw [List.mem_append, not_or]
    refine ⟨?_, mark⟩
    rw [policiesPath_chars]
    decide
  have param := pathParam_append (policiesPath ++ ['/']) [] some_ slash
  rw [List.append_nil] at param
  simp only [route, plain, param, Option.map_some, String.ofList_toList]

theorem route_status : route ⟨.get, a1.policyStatusUrl policyTypeId policyId, body⟩ =
    some (.getPolicyStatus policyId) := by
  obtain ⟨some_, slash, mark⟩ := readable_clean readable
  have url : (a1.policyStatusUrl policyTypeId policyId).toList =
      (policiesPath ++ ['/']) ++ (policyId.toList ++ statusPath) := by
    simp only [A1Adapter.policyStatusUrl, osc]
    rw [policies_slash, status_suffix]
    simp only [toString, String.toList_append, String.toList_ofList, List.append_assoc]
  have plain : (a1.policyStatusUrl policyTypeId policyId).toList.takeWhile (· ≠ '?') =
      (policiesPath ++ ['/']) ++ (policyId.toList ++ statusPath) := by
    rw [url]
    apply path_plain
    rw [policiesPath_chars, statusPath_chars]
    simpa using mark
  have longer : (policiesPath ++ ['/']) ++ (policyId.toList ++ statusPath) ≠ policiesPath := by
    intro same
    have lengths := congrArg List.length same
    simp only [List.length_append, List.length_singleton] at lengths
    omega
  have other : pathParam (policiesPath ++ ['/']) []
      ((policiesPath ++ ['/']) ++ (policyId.toList ++ statusPath)) = none := by
    apply pathParam_slash
    rw [statusPath_chars]
    simp
  have param := pathParam_append (policiesPath ++ ['/']) statusPath some_ slash
  simp only [route, plain, if_neg longer, other, param, String.ofList_toList]

omit readable in
theorem route_list : route ⟨.get, a1.policyListUrl policyTypeId, body⟩ =
    some (.listPolicies (some (toString policyTypeId))) := by
  obtain ⟨_, slash, _⟩ := readable_clean (int_readable policyTypeId)
  have unmarked : '&' ∉ (toString policyTypeId).toList := fun inside =>
    absurd ((int_readable policyTypeId).2 _ inside) (by decide)
  have url : (a1.policyListUrl policyTypeId).toList = policiesPath ++
      '?' :: ("policytype_id".toList ++ '=' :: (toString policyTypeId).toList) := by
    simp only [A1Adapter.policyListUrl, osc]
    rw [policies_query]
    simp only [toString, String.toList_append, String.toList_ofList, List.append_assoc,
      List.cons_append, List.nil_append]
  have clean : '?' ∉ policiesPath := by
    rw [policiesPath_chars]
    decide
  obtain ⟨path, query⟩ := path_query ("policytype_id".toList ++
    '=' :: (toString policyTypeId).toList) clean
  have named : ∀ c ∈ "policytype_id".toList, c ≠ '=' ∧ c ≠ '&' := by
    have all : ("policytype_id".toList.all fun c => c != '=' && c != '&') = true := by
      decide +kernel
    intro c member
    simpa using List.all_eq_true.mp all c member
  simp only [route, url, path, query, if_true, queryParam_single named unmarked]

end

/-! What a request does to one policy. -/

def policyAt (id : String) (s : OscState) : Option StoredPolicy × Option Value :=
  (s.policies.get? id, s.policyStatus.get? id)

/-- The policy stands, with this body under this type, and is reported as enforced. -/
def Live (id : String) (policy : StoredPolicy) (s : OscState) : Prop :=
  ∃ now, policyAt id s = (some policy, some (enforcedStatus now))

/-- The request may create, replace or delete the policy. -/
def Writes (id : String) (req : Request) : Prop :=
  (route req = some .putPolicy ∧ Dict.get? "policy_id" req.body = some (.str id)) ∨
    route req = some (.deletePolicy id)

variable {py : Interpreter} {js : Jsonschema} {now : String} {s : OscState}

/-- A body is stored whole, under the type that was known and with data valid for it, or
    nothing happens. -/
theorem putPolicy_cases (py : Interpreter) (js : Jsonschema) (now : String) (body : Dict Value)
    (s : OscState) :
    ((putPolicy s py js now body).2 = s ∧ (putPolicy s py js now body).1.success = false) ∨
    ∃ id ptype schema, Dict.get? "policy_id" body = some (.str id) ∧
      (Dict.getD body "policytype_id" .null).toStr py = .ok ptype ∧
      s.policyTypes.get? ptype = some schema ∧
      js.validate (Dict.getD body "policy_data" .null) schema = .ok () ∧
      (putPolicy s py js now body).2 = { s with
        policies := s.policies.set id ⟨body, ptype⟩
        policyStatus := s.policyStatus.set id (enforcedStatus now) } ∧
      (putPolicy s py js now body).1.success = true := by
  rw [putPolicy]
  split
  · exact Or.inl ⟨rfl, rfl⟩
  · split
    · exact Or.inl ⟨rfl, rfl⟩
    · rename_i ptype typed
      split
      · exact Or.inl ⟨rfl, rfl⟩
      · rename_i schema known
        split
        · exact Or.inl ⟨rfl, rfl⟩
        · rename_i valid
          split
          · rename_i id named
            right
            refine ⟨id, ptype, schema, ?_, typed, known, valid, rfl, ?_⟩
            · cases found : Dict.get? "policy_id" body with
              | none =>
                rw [Dict.getD, found] at named
                cases named
              | some v =>
                rw [Dict.getD, found, Option.getD_some] at named
                rw [named]
            · dsimp only
              split <;> rfl
          · exact Or.inl ⟨rfl, rfl⟩

/-- A body with all its keys and valid data is stored. -/
theorem putPolicy_valid (now : String) {body : Dict Value} {id ptype : String} {schema : Value}
    (complete : ∀ k ∈ requiredKeys, Dict.has body k = true)
    (typed : (Dict.getD body "policytype_id" .null).toStr py = .ok ptype)
    (known : s.policyTypes.get? ptype = some schema)
    (valid : js.validate (Dict.getD body "policy_data" .null) schema = .ok ())
    (named : Dict.getD body "policy_id" .null = .str id) :
    (putPolicy s py js now body).2 = { s with
      policies := s.policies.set id ⟨body, ptype⟩
      policyStatus := s.policyStatus.set id (enforcedStatus now) } := by
  have present : (requiredKeys.find? fun k => !Dict.has body k) = none := by
    rw [List.find?_eq_none]
    intro k member
    rw [complete k member]
    decide
  simp only [putPolicy, present, typed, known, valid, named]

theorem putPolicyType_policies (id : String) (body : Dict Value) (s : OscState) :
    (putPolicyType s id body).2.policies = s.policies ∧
      (putPolicyType s id body).2.policyStatus = s.policyStatus := by
  unfold putPolicyType
  split <;> exact ⟨rfl, rfl⟩

theorem deletePolicy_cases (id : String) (s : OscState) :
    (s.policies.get? id = none ∧ (deletePolicy s id).2 = s ∧
      (deletePolicy s id).1.success = false) ∨
    ((s.policies.get? id).isSome ∧ (deletePolicy s id).2 = { s with
        policies := s.policies.pop id
        policyStatus := s.policyStatus.pop id } ∧ (deletePolicy s id).1.status = 204) := by
  unfold deletePolicy
  split
  · rename_i absent
    exact Or.inl ⟨absent, rfl, rfl⟩
  · rename_i policy found
    exact Or.inr ⟨by rw [found]; rfl, rfl, rfl⟩

/-- A request that does not write a policy leaves it and its status as they are. -/
theorem serve_elsewhere {id : String} {req : Request} (other : ¬Writes id req) :
    policyAt id (serve py js now req s).2 = policyAt id s := by
  unfold serve
  split
  · rfl
  · rfl
  · rw [policyAt, (putPolicyType_policies _ _ _).1, (putPolicyType_policies _ _ _).2, policyAt]
  · rename_i put
    obtain ⟨same, _⟩ | ⟨id', ptype, schema, named, _, _, _, stored, _⟩ :=
      putPolicy_cases py js now req.body s
    · rw [same]
    · have apart : id ≠ id' := by
        rintro rfl
        exact other (Or.inl ⟨put, named⟩)
      simp only [policyAt, stored, Mapping.get?_set_ne _ _ apart]
  · rfl
  · rfl
  · rfl
  · rename_i id' delete
    obtain ⟨_, same, _⟩ | ⟨_, popped, _⟩ := deletePolicy_cases id' s
    · rw [same]
    · have apart : id ≠ id' := by
        rintro rfl
        exact other (Or.inr delete)
      simp only [policyAt, popped, Mapping.get?_pop_ne _ apart]
  · rfl

/-- Which ids a list shows. -/
theorem mem_listPolicies {wanted : String} (some_ : wanted ≠ "") (id : String) :
    (∃ ids, (listPolicies s (some wanted)).body = .dict [("policy_ids", .list ids)] ∧
      (.str id ∈ ids ↔ ∃ policy, s.policies.get? id = some policy ∧
        policy.policytypeId = wanted)) := by
  refine ⟨_, rfl, ?_⟩
  simp only [List.mem_map, List.mem_filter, some_, false_or, decide_eq_true_eq]
  constructor
  · rintro ⟨text, ⟨⟨key, policy⟩, ⟨member, typed⟩, rfl⟩, same⟩
    cases same
    exact ⟨policy, Mapping.get?_eq_some.mpr member, typed⟩
  · rintro ⟨policy, found, typed⟩
    exact ⟨id, ⟨(id, policy), ⟨Mapping.get?_eq_some.mp found, typed⟩, rfl⟩, rfl⟩

end HorizonRic.OscEmulator
