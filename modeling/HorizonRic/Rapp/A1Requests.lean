import HorizonRic.Rapp.A1PolicyTypes
import HorizonRic.Rapp.A1Adapter

/-!
The requests of `rapp/a1_adapter.py` beside the PUT of a policy: registration of the
policy types, status, list and rollback, each with its address in every dialect, and what
the adapter makes of the answers.
-/
namespace HorizonRic.Rapp

open Py

inductive Method where
  | get
  | put
  | delete
  deriving DecidableEq

structure Request where
  method : Method
  url : String
  body : Dict Value := []

/-- `body` is the JSON of the answer. -/
structure Response where
  status : Int
  body : Value := .null

/-- `raise_for_status` lets the answer pass. -/
def Response.success (r : Response) : Bool := decide (200 ≤ r.status ∧ r.status < 300)

def PolicyPut.request (p : PolicyPut) : Request := ⟨.put, p.url, p.body⟩

/-- What the PUT of a policy ends with; no answer is a transport error. -/
def putOutcome : Option Response → PutOutcome
  | none => .httpError none
  | some r => if r.success then .accepted r.status else .httpError (some r.status)

namespace A1Adapter
variable (a1 : A1Adapter)

def policyTypeUrl (policyTypeId : Int) : String :=
  match a1.cfg.dialect with
  | .oscA1 => s!"/a1-p/policytypes/{policyTypeId}"
  | .osc => s!"/a1-policy/v2/policy-types/{policyTypeId}"
  | .eiap => s!"/A1-PolicyManagement/v2/policy-types/{policyTypeId}"
  | .mantaray => s!"/sdn-r/api/v1/policy-types/{policyTypeId}"
  | .legacy => s!"/A1-P/v2/policytypes/{policyTypeId}"

def policyStatusUrl (policyTypeId : Int) (policyId : String) : String :=
  match a1.cfg.dialect with
  | .oscA1 => s!"/a1-p/policytypes/{policyTypeId}/policies/{policyId}/status"
  | .osc => s!"/a1-policy/v2/policies/{policyId}/status"
  | .eiap => s!"/A1-PolicyManagement/v2/policies/{policyId}/status"
  | .mantaray => s!"/sdn-r/api/v1/policies/{policyId}/status"
  | .legacy => s!"/A1-P/v2/policytypes/{policyTypeId}/policies/{policyId}/status"

def policyListUrl (policyTypeId : Int) : String :=
  match a1.cfg.dialect with
  | .oscA1 => s!"/a1-p/policytypes/{policyTypeId}/policies"
  | .osc => s!"/a1-policy/v2/policies?policytype_id={policyTypeId}"
  | .eiap => s!"/A1-PolicyManagement/v2/policies?policyTypeId={policyTypeId}"
  | .mantaray => s!"/sdn-r/api/v1/policies?policyTypeId={policyTypeId}"
  | .legacy => s!"/A1-P/v2/policytypes/{policyTypeId}/policies"

/-- The PUT that `register_policy_types` sends for one type. -/
def registerRequest (policyType : String) (spec : PolicyTypeSpec) : Except PyErr Request :=
  match Dict.get? policyType a1.cfg.policyTypes with
  | none => .error .keyError
  | some policyTypeId => do
    let schema ← policyCreateSchema policyType
    .ok ⟨.put, a1.policyTypeUrl policyTypeId,
      [("policy_type_id", .int policyTypeId), ("name", .str spec.name),
        ("description", .str spec.description), ("schema_version", .str spec.schemaV),
        ("create_schema", schema.document)]⟩

/-- The request of `get_policy_status`, `list_policies` and `rollback_policy`; the last does not
    ask first whether the type is registered. -/
def statusRequest (policyType policyId : String) : Except PyErr Request :=
  match Dict.get? policyType a1.cfg.policyTypes with
  | none => .error .valueError
  | some policyTypeId => .ok ⟨.get, a1.policyStatusUrl policyTypeId policyId, []⟩

def listRequest (policyType : String) : Except PyErr Request :=
  match Dict.get? policyType a1.cfg.policyTypes with
  | none => .error .valueError
  | some policyTypeId => .ok ⟨.get, a1.policyListUrl policyTypeId, []⟩

def rollbackRequest (policyType policyId : String) : Except PyErr Request :=
  match Dict.get? policyType a1.cfg.policyTypes with
  | none => .error .keyError
  | some policyTypeId => .ok ⟨.delete, a1.policyInstanceUrl policyTypeId policyId, []⟩

end A1Adapter

/-- `list(v)`. -/
def listOf : Value → Except PyErr (List Value)
  | .list xs => .ok xs
  | .str s => .ok (s.toList.map fun c => .str (String.singleton c))
  | .dict d => .ok (d.map fun item => .str item.1)
  | _ => .error .typeError

/-- What `list_policies` makes of an answer; `none` is an `HTTPError`. -/
def listResult (py : Interpreter) (r : Response) : Option (Except PyErr (List Value)) :=
  if r.success then
    some <| match r.body with
    | .list xs => xs.mapM fun x => Value.str <$> x.toStr py
    | .dict d => listOf (Dict.getD d "policy_ids" (.list []))
    | _ => .error .attributeError
  else none

/-- What `get_policy_status` makes of an answer. -/
def statusResult (r : Response) : Option Value := if r.success then some r.body else none

/-- What `rollback_policy` makes of an answer. -/
def rollbackResult (r : Response) : Option Int := if r.success then some r.status else none

end HorizonRic.Rapp
