import HorizonRic.Shield.Certificate
import HorizonRic.Policy.LiConstraint
import HorizonRic.Python.Format

/-!
`policy/emit_guards.py`: the guards between a decision and the A1 wire. The chain
gives the failures of all of them.
-/
namespace HorizonRic.Policy

open Py

structure GuardFailure where
  guardId : String
  message : String
  detail : Option (Dict Value) := none

/-- `[...]` of strings. -/
def texts (ss : List String) : Value := .list (ss.map Value.str)

section
variable (py : Interpreter)

def guardShieldCertificateSafe : Option SafetyCertificate → Option GuardFailure
  | none =>
    some ⟨"missing_safety_certificate",
      "no SafetyCertificate attached — the action never passed the Shield.", none⟩
  | some certificate =>
    if certificate.emitBlocked || !certificate.safe then
      let violated := (texts certificate.violatedIds).reprText py
      some ⟨"shield_blocked",
        s!"Shield could not make the action safe; emit refused. violated={violated}",
        some [("violated_ids", texts certificate.violatedIds)]⟩
    else none

def guardPredictedOutcomePretrained (headIsPretrained : Bool) : Option GuardFailure :=
  if headIsPretrained then none
  else some ⟨"head_not_pretrained",
    "predictive head is not pretrained — refuse emit until a checkpoint " ++
    "is loaded or the operator explicitly opts into canary mode.", none⟩

def guardDecisionWithinA1Budget (elapsedMs policyPeriodMs : Number) : Option GuardFailure :=
  if Number.le elapsedMs policyPeriodMs then none
  else
    let elapsed := fmtFixed 1 elapsedMs
    let period := fmtFixed 0 policyPeriodMs
    some ⟨"decision_over_budget",
      s!"decision took {elapsed} ms; A1 refresh window is {period} ms. Aborting emit — " ++
      "policy is stale.",
      some [("elapsed_ms", .float elapsedMs), ("budget_ms", .float policyPeriodMs)]⟩

/-- A missing audit field and an empty one are the same here. -/
def guardCorrectionsRecorded (corrections : List ConstraintViolation)
    (auditCorrectionsField : List (Dict Value)) : Option GuardFailure :=
  if corrections.isEmpty then none
  else if auditCorrectionsField.isEmpty then
    let count := corrections.length
    some ⟨"corrections_not_audited",
      s!"{count} Shield correction(s) were applied but none persisted to the DecisionRecord. " ++
      "The audit trail would hide the projection — regulator cannot reproduce.",
      some [("n_corrections", .int count),
        ("constraint_ids", texts (sortedStrings (corrections.map (·.constraintId)).toFinset))]⟩
  else none

def runGuardChain (certificate : Option SafetyCertificate) (headIsPretrained : Bool)
    (elapsedMs : Number) (auditCorrectionsField : List (Dict Value)) (policyPeriodMs : Number) :
    List GuardFailure :=
  [guardShieldCertificateSafe py certificate,
    guardPredictedOutcomePretrained headIsPretrained,
    guardDecisionWithinA1Budget elapsedMs policyPeriodMs,
    guardCorrectionsRecorded ((certificate.map (·.corrections)).getD [])
      auditCorrectionsField].filterMap id

theorem certified_of_chain {certificate : SafetyCertificate} {headIsPretrained : Bool}
    {elapsedMs policyPeriodMs : Number} {audit : List (Dict Value)}
    (passed : runGuardChain py (some certificate) headIsPretrained elapsedMs audit policyPeriodMs
      = []) : certificate.safe = true ∧ certificate.emitBlocked = false := by
  rw [runGuardChain, List.filterMap_eq_nil_iff] at passed
  have first : guardShieldCertificateSafe py (some certificate) = none :=
    passed _ List.mem_cons_self
  rw [guardShieldCertificateSafe] at first
  split at first
  · cases first
  · rename_i clean
    simpa [and_comm] using clean

/-- What the guard sees to, whoever fills the field. -/
theorem audited_of_chain {certificate : SafetyCertificate} {head : Bool}
    {elapsedMs policyPeriodMs : Number} {audit : List (Dict Value)}
    (passed : runGuardChain py (some certificate) head elapsedMs audit policyPeriodMs = []) :
    certificate.corrections = [] ∨ audit ≠ [] := by
  rw [runGuardChain, List.filterMap_eq_nil_iff] at passed
  have last : guardCorrectionsRecorded certificate.corrections audit = none :=
    passed _ (List.mem_cons_of_mem _ (List.mem_cons_of_mem _ (List.mem_cons_of_mem _
      List.mem_cons_self)))
  rw [guardCorrectionsRecorded] at last
  split at last
  · rename_i none'
    exact Or.inl (List.isEmpty_iff.mp none')
  · split at last
    · cases last
    · rename_i some'
      exact Or.inr fun empty => some' (List.isEmpty_iff.mpr empty)

end
end HorizonRic.Policy
