import HorizonRic.Evidence.Store
import HorizonRic.Shield.Certificate
import HorizonRic.Python.TextFile

/-!
`A1Adapter.emit_policy` of `rapp/a1_adapter.py`: the checks before the PUT, the
request in each dialect, and the DecisionRecord that is appended once the peer has
accepted the policy. How the peer answers, and which appends the evidence store
refuses, is left open; an append writes its row or nothing.
-/
namespace HorizonRic.Rapp

open Py Evidence

/-- `_env_truthy` on the value of the variable. -/
def envTruthy : Option String → Bool
  | none => false
  | some raw =>
    decide (String.ofList ((strip raw.toList).map Char.toLower) ∉ ["", "0", "false", "no"])

inductive Dialect where
  | legacy
  | osc
  | oscA1
  | eiap
  | mantaray
  deriving DecidableEq

/-- `policyTypes` gives the `policy_type_id` of each registered name. -/
structure A1AdapterConfig where
  rappId : String := "horizon-ric-rapp"
  policyTypes : Dict Int :=
    [("horizon.qos.priority", 20001), ("horizon.traffic.steering", 20002),
      ("horizon.admission.control", 20003), ("horizon.spectrum.reservation", 20004)]
  dialect : Dialect := .legacy
  oscRicId : String := "ric_emulated_horizon"
  oscServiceId : String := "horizon-ric-rapp"
  eiapRicId : String := "ric_emulated_horizon"
  mantarayRicId : String := "ric_emulated_horizon"

structure PolicyPut where
  url : String
  body : Dict Value

/-- What the circuit breaker's call of the PUT ends with. -/
inductive PutOutcome where
  | accepted (status : Int)
  | httpError (status : Option Int)
  | circuitBreakerError
  | other (err : PyErr)

/-- What `emit_policy` raises. -/
inductive EmitError where
  | evidencePersist (policyId : String) (httpStatus : Int)
  | httpError (status : Option Int)
  | circuitBreakerError
  | other (err : PyErr)

/-- The rows of the evidence store, the appends tried so far, the PUTs attempted, and
    `_policies_emitted`. -/
structure Ledger where
  rows : List DecisionRecord := []
  appends : Nat := 0
  puts : List PolicyPut := []
  policiesEmitted : Nat := 0

/-- The evidence store in a tenant scope; `fails n` is the exception of append number `n`. -/
structure EvidenceSink where
  scope : Option String := none
  fails : Nat → Option PyErr := fun _ => none

/-- `store.append(record)`. -/
def EvidenceSink.append (store : EvidenceSink) (record : DecisionRecord) (l : Ledger) :
    Except PyErr Unit × Ledger :=
  match store.fails l.appends with
  | some e => (.error e, { l with appends := l.appends + 1 })
  | none =>
    (.ok (), { l with appends := l.appends + 1, rows := l.rows ++ [stamp store.scope record] })

structure A1Adapter where
  cfg : A1AdapterConfig := {}
  requireCert : Option String := none
  put : PolicyPut → PutOutcome

namespace A1Adapter
variable (a1 : A1Adapter)

def policyInstanceUrl (policyTypeId : Int) (policyId : String) : String :=
  match a1.cfg.dialect with
  | .oscA1 => s!"/a1-p/policytypes/{policyTypeId}/policies/{policyId}"
  | .osc => s!"/a1-policy/v2/policies/{policyId}"
  | .eiap => s!"/A1-PolicyManagement/v2/policies/{policyId}"
  | .mantaray => s!"/sdn-r/api/v1/policies/{policyId}"
  | .legacy => s!"/A1-P/v2/policytypes/{policyTypeId}/policies/{policyId}"

def policyCreateUrl (policyTypeId : Int) : String :=
  match a1.cfg.dialect with
  | .oscA1 => s!"/a1-p/policytypes/{policyTypeId}/policies"
  | .osc => "/a1-policy/v2/policies"
  | .eiap => "/A1-PolicyManagement/v2/policies"
  | .mantaray => "/sdn-r/api/v1/policies"
  | .legacy => s!"/A1-P/v2/policytypes/{policyTypeId}/policies"

/-- The request that `_do_put` sends. -/
def policyPut (policyTypeId : Int) (policyId : String) (payload : Dict Value) : PolicyPut :=
  let typeId := toString policyTypeId
  match a1.cfg.dialect with
  | .osc =>
    ⟨a1.policyCreateUrl policyTypeId,
      [("policy_id", .str policyId), ("policytype_id", .str typeId),
        ("ric_id", .str a1.cfg.oscRicId), ("service_id", .str a1.cfg.oscServiceId),
        ("transient", .bool false), ("policy_data", .dict payload)]⟩
  | .eiap =>
    ⟨a1.policyCreateUrl policyTypeId,
      [("policyId", .str policyId), ("policyTypeId", .str typeId),
        ("ricId", .str a1.cfg.eiapRicId), ("policyData", .dict payload)]⟩
  | .mantaray =>
    ⟨a1.policyCreateUrl policyTypeId,
      [("policyId", .str policyId), ("policyTypeId", .str typeId),
        ("ricId", .str a1.cfg.mantarayRicId), ("rappId", .str a1.cfg.rappId),
        ("policyData", .dict payload)]⟩
  | _ => ⟨a1.policyInstanceUrl policyTypeId policyId, payload⟩

/-- `HORIZON_A1_REQUIRE_CERT` refuses the certificate. -/
def refuses (certificate : SafetyCertificate) : Bool :=
  envTruthy a1.requireCert && (!certificate.safe || certificate.emitBlocked)

/-- `emit_policy` with the record and the certificate; `policyId` is the UUID it draws. -/
def emitPolicy (store : EvidenceSink) (policyType : String) (payload : Dict Value)
    (policyId : String) (record : DecisionRecord) (certificate : SafetyCertificate) (l : Ledger) :
    Except EmitError (String × Int) × Ledger :=
  match Dict.get? policyType a1.cfg.policyTypes with
  | none => (.error (.other .valueError), l)
  | some policyTypeId =>
    if a1.refuses certificate then (.error (.other .valueError), l)
    else
      let put := a1.policyPut policyTypeId policyId payload
      let l := { l with puts := l.puts ++ [put] }
      match a1.put put with
      | .accepted status =>
        let l := { l with policiesEmitted := l.policiesEmitted + 1 }
        match store.append record l with
        | (.ok _, l) => (.ok (policyId, status), l)
        | (.error _, l) => (.error (.evidencePersist policyId status), l)
      | .httpError status => (.error (.httpError status), l)
      | .circuitBreakerError => (.error .circuitBreakerError, l)
      | .other e => (.error (.other e), l)

end A1Adapter

/-! What an append and an emit do to the ledger. -/

section
variable {store : EvidenceSink} {record : DecisionRecord} {l l' : Ledger}

theorem append_ok (h : store.append record l = (.ok (), l')) :
    l'.rows = l.rows ++ [stamp store.scope record] ∧ l'.puts = l.puts := by
  rw [EvidenceSink.append] at h
  split at h <;> cases h
  exact ⟨rfl, rfl⟩

theorem append_error {e : PyErr} (h : store.append record l = (.error e, l')) :
    l'.rows = l.rows ∧ l'.puts = l.puts := by
  rw [EvidenceSink.append] at h
  split at h <;> cases h
  exact ⟨rfl, rfl⟩

/-- The stored row keeps the id and the action of the record. -/
theorem stamp_kept (scope : Option String) (r : DecisionRecord) :
    (stamp scope r).decisionId = r.decisionId ∧ (stamp scope r).chosenAction = r.chosenAction := by
  unfold stamp
  split <;> exact ⟨rfl, rfl⟩

variable {a1 : A1Adapter} {policyType policyId : String} {payload : Dict Value}
  {certificate : SafetyCertificate}

/-- An emit appends its record exactly when it returns, and raises with the rows unchanged. -/
theorem emitPolicy_rows {outcome : Except EmitError (String × Int)}
    (h : a1.emitPolicy store policyType payload policyId record certificate l = (outcome, l')) :
    (∃ answer, outcome = .ok answer ∧ l'.rows = l.rows ++ [stamp store.scope record]) ∨
      ∃ e, outcome = .error e ∧ l'.rows = l.rows := by
  rw [A1Adapter.emitPolicy] at h
  split at h
  · cases h
    exact Or.inr ⟨_, rfl, rfl⟩
  · split at h
    · cases h
      exact Or.inr ⟨_, rfl, rfl⟩
    · dsimp only at h
      split at h
      · split at h
        · rename_i appended
          cases h
          exact Or.inl ⟨_, rfl, (append_ok appended).1⟩
        · rename_i refused
          cases h
          exact Or.inr ⟨_, rfl, (append_error refused).1⟩
      · cases h
        exact Or.inr ⟨_, rfl, rfl⟩
      · cases h
        exact Or.inr ⟨_, rfl, rfl⟩
      · cases h
        exact Or.inr ⟨_, rfl, rfl⟩

end
end HorizonRic.Rapp
