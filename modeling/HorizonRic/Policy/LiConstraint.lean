import HorizonRic.Shield.Certificate
import Mathlib.Data.Finset.Sort
import Mathlib.Order.Lattice
import Mathlib.Data.String.Basic
import Mathlib.Data.Finset.Lattice.Fold

/-!
Lawful-intercept jurisdiction constraint. Sets of identifiers are finite sets
of strings; `sorted` lists them in code point order. The layer only refuses or
strips what an action declares, and never rewrites a jurisdiction.
-/
namespace HorizonRic
open Py

structure LIJurisdictionRule where
  ruleId : String
  protectedUeIds : Finset String
  protectedSliceIds : Finset String
  allowedJurisdictions : Finset String

/-- The constructor refuses an empty catalogue that is not fail-closed, unless
    the election is recorded. -/
structure LIConstraint where
  rules : List LIJurisdictionRule
  failClosed : Bool
  deploymentAuditRecord : Option String
  accepted : failClosed = true ∨ rules ≠ [] ∨ (deploymentAuditRecord.getD "") ≠ ""

def LIConstraint.new (rules : List LIJurisdictionRule) (failClosed : Bool)
    (deploymentAuditRecord : Option String) : Except PyErr LIConstraint :=
  if h : failClosed = true ∨ rules ≠ [] ∨ (deploymentAuditRecord.getD "") ≠ "" then
    .ok ⟨rules, failClosed, deploymentAuditRecord, h⟩
  else .error .valueError

def cidUe : String := "li_protected_ue"
def cidJx : String := "li_jurisdiction"
def cidFailClosed : String := "li_fail_closed"

/-- `sorted(s)`. -/
def sortedStrings (s : Finset String) : List String := s.sort (· ≤ ·)

section
variable (py : Interpreter)

/-- `{str(x) for x in xs}`. -/
def strSet : List Value → Except PyErr (Finset String)
  | [] => .ok ∅
  | x :: xs => do
    let head ← x.toStr py
    let rest ← strSet xs
    .ok (insert head rest)

/-- A string is one element, a mapping gives its keys, and what cannot be
    iterated is the empty set. -/
def asStrSet : Value → Except PyErr (Finset String)
  | .null => .ok ∅
  | .list xs => strSet py xs
  | .str s => .ok {s}
  | .dict entries => .ok (entries.map Prod.fst).toFinset
  | _ => .ok ∅

/-- The text of a sorted set of strings as an f-string shows it. -/
def sortedText (s : Finset String) : String :=
  Value.reprText py (.list ((sortedStrings s).map .str))

/-- `value in allowed` for a set of strings; a list or mapping is unhashable. -/
def inStrSet (value : Value) (allowed : Finset String) : Except PyErr Bool :=
  match value with
  | .str s => .ok (decide (s ∈ allowed))
  | .list _ => .error .typeError
  | .dict _ => .error .typeError
  | _ => .ok false

namespace LIConstraint

def failClosedViolation (message : String) : ConstraintViolation :=
  ⟨cidFailClosed, "hard", none, message⟩

def checkMessage : String :=
  "LIConstraint is in fail-closed mode with an empty rule " ++
  "catalogue: every action is rejected until the operator " ++
  "wires the LIMF/ADMF rule set. To permit no-LI lab " ++
  "deployments, construct LIConstraint(rules=[], " ++
  "fail_closed=False, deployment_audit_record=<id>)."

def projectMessage : String :=
  "LIConstraint fail-closed: empty rule catalogue rejects " ++
  "all actions; project() returns the action unmodified " ++
  "alongside the fail-closed violation so the emit-guard " ++
  "chain refuses to emit."

def ueViolations (affectedUes : Finset String) (rule : LIJurisdictionRule) :
    List ConstraintViolation :=
  let hit := affectedUes ∩ rule.protectedUeIds
  if hit.Nonempty then
    let hitText := sortedText py hit
    let ruleText := py.strRepr rule.ruleId
    [⟨cidUe, "hard", none,
      s!"action affects LI-protected UE(s) {hitText} under rule {ruleText}; refused."⟩]
  else []

def jxViolations (affectedSlices : Finset String) (targetJx : Value)
    (rule : LIJurisdictionRule) : Except PyErr (List ConstraintViolation) := do
  let hit := affectedSlices ∩ rule.protectedSliceIds
  if hit.Nonempty then
    if ← inStrSet targetJx rule.allowedJurisdictions then .ok []
    else
      let jx ← targetJx.repr py
      let hitText := sortedText py hit
      let allowed := sortedText py rule.allowedJurisdictions
      let ruleText := py.strRepr rule.ruleId
      .ok [⟨cidJx, "hard", none,
        s!"action would anchor LI-protected slice(s) {hitText} in jurisdiction {jx}, " ++
        s!"not in allowed set {allowed} (rule {ruleText}); refused."⟩]
  else .ok []

def ruleViolations (affectedUes affectedSlices : Finset String) (targetJx : Value) :
    List LIJurisdictionRule → Except PyErr (List ConstraintViolation)
  | [] => .ok []
  | rule :: rest => do
    let jx ← jxViolations py affectedSlices targetJx rule
    let more ← ruleViolations affectedUes affectedSlices targetJx rest
    .ok (ueViolations py affectedUes rule ++ jx ++ more)

variable (li : LIConstraint)

def checkFeasibility (action _context : Dict Value) :
    Except PyErr (List ConstraintViolation) :=
  if li.failClosed && li.rules.isEmpty then .ok [failClosedViolation checkMessage]
  else do
    let affectedUes ← asStrSet py (action.getD "affected_ue_ids" .null)
    let affectedSlices ← asStrSet py (action.getD "affected_slice_ids" .null)
    let targetJx := action.getD "target_jurisdiction" .null
    ruleViolations py affectedUes affectedSlices targetJx li.rules

def protectedUnion : Finset String :=
  li.rules.foldl (fun union rule => union ∪ rule.protectedUeIds) ∅

/-- Strips protected UEs from `affected_ue_ids`. -/
def stripProtected (feasible : Dict Value) (affectedUes : Finset String) :
    Dict Value × List ConstraintViolation :=
  let removed := affectedUes ∩ li.protectedUnion
  if removed.Nonempty then
    let removedText := sortedText py removed
    let kept := (sortedStrings (affectedUes \ removed)).map Value.str
    (feasible.set "affected_ue_ids" (.list kept),
      [⟨cidUe, "hard", none,
        s!"projected: removed LI-protected UE(s) {removedText} from affected_ue_ids."⟩])
  else (feasible, [])

def project (action context : Dict Value) :
    Except PyErr (Dict Value × List ConstraintViolation) :=
  if li.failClosed && li.rules.isEmpty then
    .ok (action, [failClosedViolation projectMessage])
  else do
    let affectedUes ← asStrSet py (action.getD "affected_ue_ids" .null)
    let (feasible, corrections) := li.stripProtected py action affectedUes
    let violations ← li.checkFeasibility py feasible context
    .ok (feasible, corrections ++ violations.filter (fun v => v.constraintId == cidJx))

end LIConstraint
end

end HorizonRic
