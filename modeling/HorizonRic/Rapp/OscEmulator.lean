import HorizonRic.Rapp.A1Requests
import HorizonRic.Rapp.Pipeline
import HorizonRic.Python.Mapping
import HorizonRic.Python.JsonRoundTrip

/-!
`deploy/osc_emulator/server.py`: the policy side of the emulated Non-RT RIC, one
handler for each method and path, on its three dictionaries.
-/
namespace HorizonRic.OscEmulator

open Py Rapp

def httpException (status : Int) (detail : String) : Response :=
  ⟨status, .dict [("detail", .str detail)]⟩

def internalError : Response := ⟨500, .null⟩

/-- An accepted body with the text of its type. -/
structure StoredPolicy where
  body : Dict Value
  policytypeId : String

structure OscState where
  policyTypes : Mapping String Value := .empty
  policies : Mapping String StoredPolicy := .empty
  policyStatus : Mapping String Value := .empty
  ricPolicytypeIds : List String := []

/-- `{"last_modified": now, "status": {"enforceStatus": "ENFORCED"}}`. -/
def enforcedStatus (now : String) : Value :=
  .dict [("last_modified", .str now), ("status", .dict [("enforceStatus", .str "ENFORCED")])]

def requiredKeys : List String := ["policy_id", "policytype_id", "ric_id", "policy_data"]

section
variable (s : OscState)

def listPolicyTypes : Response :=
  ⟨200, .dict [("policytype_ids", .list (s.policyTypes.items.map fun type => .str type.1))]⟩

def getPolicyType (policytypeId : String) : Response :=
  match s.policyTypes.get? policytypeId with
  | none => httpException 404 "policytype not found"
  | some schema => ⟨200, .dict [("policy_schema", schema)]⟩

def putPolicyType (policytypeId : String) (body : Dict Value) : Response × OscState :=
  match DecisionPipeline.orElse (Dict.getD body "policy_schema" .null)
      (Dict.getD body "create_schema" .null) with
  | .null => (httpException 400 "missing policy_schema / create_schema", s)
  | schema =>
    (⟨if (s.policyTypes.get? policytypeId).isSome then 200 else 201, .null⟩,
      { s with
        policyTypes := s.policyTypes.set policytypeId schema
        ricPolicytypeIds :=
          if policytypeId ∈ s.ricPolicytypeIds then s.ricPolicytypeIds
          else s.ricPolicytypeIds ++ [policytypeId] })

/-- The ids of clients are texts; one that is not stays outside. -/
def putPolicy (py : Interpreter) (js : Jsonschema) (now : String) (body : Dict Value) :
    Response × OscState :=
  match requiredKeys.find? fun k => !Dict.has body k with
  | some k => (httpException 400 s!"missing required field: {k}", s)
  | none =>
    match (Dict.getD body "policytype_id" .null).toStr py with
    | .error _ => (internalError, s)
    | .ok ptype =>
      match s.policyTypes.get? ptype with
      | none => (httpException 404 s!"unknown policytype_id: {ptype}", s)
      | some schema =>
        match js.validate (Dict.getD body "policy_data" .null) schema with
        | .error e =>
          (httpException 400 s!"policy_data does not match policytype schema: {e}", s)
        | .ok _ =>
          match Dict.getD body "policy_id" .null with
          | .str id =>
            (⟨if (s.policies.get? id).isSome then 200 else 201, .null⟩,
              { s with
                policies := s.policies.set id ⟨body, ptype⟩
                policyStatus := s.policyStatus.set id (enforcedStatus now) })
          | _ => (internalError, s)

/-- The ids of all policies, or of those of one type. -/
def listPolicies (policytypeId : Option String) : Response :=
  let ids := (s.policies.items.filter fun policy =>
    match policytypeId with
    | none => true
    | some wanted => decide (wanted = "" ∨ policy.2.policytypeId = wanted)).map Prod.fst
  ⟨200, .dict [("policy_ids", .list (ids.map .str))]⟩

def getPolicy (policyId : String) : Response :=
  match s.policies.get? policyId with
  | none => httpException 404 "policy not found"
  | some policy => ⟨200, .dict policy.body⟩

def getPolicyStatus (policyId : String) : Response :=
  match s.policyStatus.get? policyId with
  | none => httpException 404 "policy not found"
  | some status => ⟨200, status⟩

def deletePolicy (policyId : String) : Response × OscState :=
  match s.policies.get? policyId with
  | none => (httpException 404 "policy not found", s)
  | some _ =>
    (⟨204, .null⟩,
      { s with
        policies := s.policies.pop policyId
        policyStatus := s.policyStatus.pop policyId })

end

/-! The paths. -/

def policiesPath : List Char := "/a1-policy/v2/policies".toList
def policyTypesPath : List Char := "/a1-policy/v2/policy-types".toList
def statusPath : List Char := "/status".toList

/-- A path parameter: not empty, and no `/` in it. -/
def pathParam (before after path : List Char) : Option String :=
  match path.dropPrefix? before with
  | none => none
  | some rest =>
    match rest.dropSuffix? after with
    | none => none
    | some value => if value ≠ [] ∧ '/' ∉ value then some (String.ofList value) else none

/-- A query parameter; the last one of its name counts. -/
def queryParam (name : String) (query : List Char) : Option String :=
  (((query.splitOn '&').filter fun pair => pair.takeWhile (· ≠ '=') = name.toList).getLast?).map
    fun pair => String.ofList ((pair.dropWhile (· ≠ '=')).drop 1)

inductive Route where
  | listPolicyTypes
  | getPolicyType (policytypeId : String)
  | putPolicyType (policytypeId : String)
  | putPolicy
  | listPolicies (policytypeId : Option String)
  | getPolicy (policyId : String)
  | getPolicyStatus (policyId : String)
  | deletePolicy (policyId : String)

def route (req : Request) : Option Route :=
  let path := req.url.toList.takeWhile (· ≠ '?')
  let query := (req.url.toList.dropWhile (· ≠ '?')).drop 1
  match req.method with
  | .put =>
    if path = policiesPath then some .putPolicy
    else (pathParam (policyTypesPath ++ ['/']) [] path).map .putPolicyType
  | .get =>
    if path = policiesPath then some (.listPolicies (queryParam "policytype_id" query))
    else
      match pathParam (policiesPath ++ ['/']) [] path with
      | some id => some (.getPolicy id)
      | none =>
        match pathParam (policiesPath ++ ['/']) statusPath path with
        | some id => some (.getPolicyStatus id)
        | none =>
          if path = policyTypesPath then some .listPolicyTypes
          else (pathParam (policyTypesPath ++ ['/']) [] path).map .getPolicyType
  | .delete => (pathParam (policiesPath ++ ['/']) [] path).map .deletePolicy

/-- One request, handled at `now`. The paths of the other sides are not found here. -/
def serve (py : Interpreter) (js : Jsonschema) (now : String) (req : Request) (s : OscState) :
    Response × OscState :=
  match route req with
  | some .listPolicyTypes => (listPolicyTypes s, s)
  | some (.getPolicyType id) => (getPolicyType s id, s)
  | some (.putPolicyType id) => putPolicyType s id req.body
  | some .putPolicy => putPolicy s py js now req.body
  | some (.listPolicies type) => (listPolicies s type, s)
  | some (.getPolicy id) => (getPolicy s id, s)
  | some (.getPolicyStatus id) => (getPolicyStatus s id, s)
  | some (.deletePolicy id) => deletePolicy s id
  | none => (httpException 404 "Not Found", s)

end HorizonRic.OscEmulator
