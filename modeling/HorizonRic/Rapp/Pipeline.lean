import HorizonRic.Rapp.Planner
import HorizonRic.Rapp.A1Adapter
import HorizonRic.Policy.EmitGuards
import HorizonRic.Shield.Shield

/-!
`DecisionPipeline.process_event` of `rapp/pipeline.py`: plan, Shield, guards,
evidence record, then the refusal, the dry run or the A1 emit with the status poll.
Clock readings, the drawn UUIDs and the peer's answers are given.
-/
namespace HorizonRic.Rapp

open Py Io Evidence Policy

structure PipelineResult where
  decisionId : String
  eventId : String
  policyType : Option String
  policyId : Option String
  accepted : Bool
  httpStatus : Option Int
  enforcementStatus : Option String
  enforced : Option Bool
  blocked : Bool
  blockReasons : List String := []
  emitFailed : Bool := false
  latencyMs : Number := .fin 0
  pollDurationMs : Number := .fin 0
  evidencePersistFailed : Bool := false
  dryRun : Bool := false

/-- What `get_policy_status` raises. -/
inductive StatusError where
  | httpError
  | valueError
  | other (err : PyErr)

/-- `sign` gives the signature of a certificate and the key's fingerprint. -/
structure DecisionPipeline where
  env : Platform
  cfg : PipelineConfig := {}
  a1 : A1Adapter
  store : EvidenceSink := {}
  sign : Option (SafetyCertificate → String × String) := none

/-- What one `process_event` reads from the clock, `uuid4`, the environment and the peer. -/
structure Moment where
  decisionId : String
  policyId : String
  timestamp : String
  issuedAt : String
  elapsedMs : Number
  latencyMs : Number := .fin 0
  pollDurationMs : Number := .fin 0
  dryRun : Option String := none
  statuses : Nat → Except StatusError Value := fun _ => .error .httpError

/-- What the steps before the emit have decided. -/
structure Decision where
  policyType : String
  payload : Dict Value
  certificate : SafetyCertificate
  chainFailures : List GuardFailure
  failures : List GuardFailure
  safeTx : Option Number
  record : DecisionRecord

def minViableTxPowerDbm : ℚ := -10

def enforcedStates : List String := ["ENFORCED", "IN EFFECT", "OK"]

def physicsKeys : List String :=
  ["frequency_hz", "bandwidth_hz", "tx_power_dBm", "antenna_gain_dBi"]

/-- `int.from_bytes(digest[:4], "big")`. -/
def seedOf (digest : Digest) : Int :=
  ((digest.bytes.take 4).foldl (fun n b => 256 * n + b.toNat) 0 : Nat)

/-- `ConstraintCorrection(...)`. -/
def correctionOf (c : ConstraintViolation) : Except PyErr ConstraintCorrection :=
  match readLiteral Severity.all Severity.literal (.str c.severity) with
  | some severity => .ok ⟨c.constraintId, severity, c.marginDB, c.message⟩
  | none => .error .validationError

/-- `c.model_dump()`. -/
def correctionDump (c : ConstraintCorrection) : Dict Value :=
  [("constraint_id", .str c.constraintId), ("severity", .str c.severity.literal),
    ("margin_dB", match c.marginDb with | some x => .float x | none => .null),
    ("message", .str c.message)]

/-- `record.chosen_action[key] = value`. -/
def flag (record : DecisionRecord) (key : String) (value : Value) : DecisionRecord :=
  { record with chosenAction := record.chosenAction.set key value }

namespace DecisionPipeline
variable (pl : DecisionPipeline) (m : Moment) (event : TelemetryEvent)

def shield : Shield :=
  defaultTerrestrialShield pl.env.py
    ⟨pl.cfg.bandLoHz, pl.cfg.bandHiHz, pl.cfg.maxEirpDbm, none, .fin (17 / 2), .fin 1, .fin 0⟩

def seed : Int := seedOf (pl.env.sha256 (utf8 event.eventId))

def stateHash : Except PyErr String := do
  let text ← Json.dumps pl.env.py Json.compact event.modelDump
  .ok (pl.env.sha256 (utf8 text)).hex

def signed (certificate : SafetyCertificate) : SafetyCertificate :=
  match pl.sign with
  | some sign =>
    { certificate with
      signature := some (sign certificate).1
      signingKeyFingerprint := some (sign certificate).2 }
  | none => certificate

/-- `float(safe_tx)`; what is not a number counts as no power. -/
def safeTxVal (safeAction : Dict Value) : Except PyErr (Option Number) :=
  match Dict.getD safeAction "tx_power_dBm" .null with
  | .null => .ok none
  | v =>
    match v.toFloat pl.env.py with
    | .ok x => .ok (some x)
    | .error .typeError => .ok none
    | .error .valueError => .ok none
    | .error e => .error e

/-- The failure `tx_power_below_hw_floor`, if the power is below the floor. -/
def hardwareFloor (safeTx : Option Number) : Option GuardFailure :=
  let below := match safeTx with
    | some x => Number.lt x (.fin minViableTxPowerDbm)
    | none => true
  if below then
    let power := match safeTx with
      | some x => pl.env.py.floatRepr x
      | none => "None"
    let floor := pl.env.py.floatRepr (.fin minViableTxPowerDbm)
    some ⟨"tx_power_below_hw_floor",
      s!"certified-safe Tx power {power} dBm is below the minimum implementable {floor} dBm — " ++
      "the EIRP ceiling cannot be met by any real transmission.",
      some [("safe_tx_power_dBm", match safeTx with | some x => .float x | none => .null),
        ("min_viable_tx_power_dBm", .float (.fin minViableTxPowerDbm)),
        ("max_eirp_dBm", .float pl.cfg.maxEirpDbm)]⟩
  else none

def certificateItems (certificate : SafetyCertificate) : Dict Value :=
  [("safe", .bool certificate.safe), ("projected", .bool certificate.projected),
    ("violated_ids", texts certificate.violatedIds)] ++
  match certificate.signature with
  | some signature =>
    [("signature", .str signature),
      ("signing_key_fingerprint",
        match certificate.signingKeyFingerprint with | some k => .str k | none => .null)]
  | none => []

/-- `chosen_action` of the evidence record. -/
def chosenAction (policyType : String) (payload safeAction : Dict Value)
    (certificate : SafetyCertificate) : Dict Value :=
  [("policy_type", .str policyType), ("policy_payload", .dict payload),
    ("safe_action", .dict (physicsKeys.filterMap fun k =>
      (Dict.get? k safeAction).map fun v => (k, v))),
    ("source_event", .str event.eventId),
    ("certificate", .dict (certificateItems certificate))]

def modelVersions : ModelVersions :=
  ⟨"none", "risk_rules_v1", "none", "risk_band_rules_v1", "shield_terrestrial_v1",
    pl.cfg.rappVersion⟩

def disposeArgs : DisposeArgs := ⟨m.decisionId, none, "non_rt", none, m.issuedAt⟩

/-- Steps 1 to 4 of `process_event`. -/
def decide : Except PyErr Decision := do
  let stateHash ← pl.stateHash event
  let r ← risk pl.env.py event
  let policyType := choose r
  let payload ← chosenPayload r event m.decisionId
  let rejected ← rejected r pl.env.pydantic event m.decisionId (pl.seed event)
  let disposition ← pl.shield.dispose pl.env.py (shieldAction pl.cfg policyType payload) (some [])
    (disposeArgs m)
  let certificate := pl.signed disposition.certificate
  let corrections ← certificate.corrections.mapM correctionOf
  let chainFailures := runGuardChain pl.env.py (some certificate) true m.elapsedMs
    (corrections.map correctionDump) pl.cfg.decisionBudgetMs
  let safeTx ← pl.safeTxVal disposition.safeAction
  let outcome ← predictedOutcome r pl.env.pydantic
  let record : DecisionRecord :=
    { decisionId := m.decisionId
      timestamp := m.timestamp
      rappInstanceId := pl.cfg.rappId
      stateHash := stateHash
      chosenAction := chosenAction event policyType payload disposition.safeAction certificate
      predictedOutcomeChosen := outcome
      rejectedAlternatives := rejected
      constraintCorrections := corrections
      modelVersions := pl.modelVersions
      randomSeed := some (pl.seed event) }
  .ok ⟨policyType, payload, certificate, chainFailures,
    chainFailures ++ (pl.hardwareFloor safeTx).toList, safeTx, record⟩

/-- A result with nothing emitted. -/
def unshipped (d : Decision) : PipelineResult :=
  { decisionId := m.decisionId
    eventId := event.eventId
    policyType := some d.policyType
    policyId := none
    accepted := false
    httpStatus := none
    enforcementStatus := none
    enforced := none
    blocked := false
    latencyMs := m.latencyMs }

/-- Step 5: the refusal is appended. -/
def refuse (d : Decision) (l : Ledger) : Except PyErr PipelineResult × Ledger :=
  let reasons := if d.failures.isEmpty then ["shield_blocked"] else d.failures.map (·.guardId)
  let record := flag (flag d.record "emit_blocked" (.bool true)) "block_reasons" (texts reasons)
  match pl.store.append record l with
  | (.error e, l) => (.error e, l)
  | (.ok _, l) =>
    (.ok { unshipped m event d with blocked := true, blockReasons := reasons }, l)

/-- Step 6: the kill switch. -/
def suppress (d : Decision) (l : Ledger) : Except PyErr PipelineResult × Ledger :=
  match pl.store.append (flag d.record "dry_run" (.bool true)) l with
  | (.error e, l) => (.error e, l)
  | (.ok _, l) => (.ok { unshipped m event d with dryRun := true }, l)

/-- The branch for an `httpx.HTTPError` or an open circuit breaker. -/
def emitFailed (d : Decision) (status : Option Int) (l : Ledger) :
    Except PyErr PipelineResult × Ledger :=
  match pl.store.append (flag d.record "emit_failed" (.bool true)) l with
  | (.error e, l) => (.error e, l)
  | (.ok _, l) => (.ok { unshipped m event d with httpStatus := status, emitFailed := true }, l)

/-- `a or b` on values. -/
def orElse (a b : Value) : Value := if a.truthy then a else b

/-- `_poll_enforcement` from attempt `n` on, with the attempts that are left. -/
def pollFrom (statuses : Nat → Except StatusError Value) :
    Nat → Nat → Option String × Option Bool → Except PyErr (Option String × Option Bool)
  | 0, _, last => .ok last
  | left + 1, n, last =>
    match statuses n with
    | .error .httpError => pollFrom statuses left (n + 1) last
    | .error .valueError => pollFrom statuses left (n + 1) last
    | .error (.other e) => .error e
    | .ok (.dict body) =>
      match orElse (Dict.getD body "enforceStatus" .null)
        (orElse (Dict.getD body "instance_status" .null) (Dict.getD body "status" .null)) with
      | .null => pollFrom statuses left (n + 1) last
      | raw => do
        let text ← raw.toStr pl.env.py
        if text ∈ enforcedStates then .ok (some text, some true)
        else pollFrom statuses left (n + 1) (some text, some false)
    | .ok _ => pollFrom statuses left (n + 1) last

def pollEnforcement : Except PyErr (Option String × Option Bool) :=
  pl.pollFrom m.statuses (max 1 pl.cfg.statusPollAttempts).toNat 0 (none, none)

/-- Step 8: the policy is live. -/
def accepted (d : Decision) (policyId : String) (status : Int) (persistFailed : Bool)
    (l : Ledger) : Except PyErr PipelineResult × Ledger :=
  match pl.pollEnforcement m with
  | .error e => (.error e, l)
  | .ok (enforcementStatus, enforced) =>
    (.ok { unshipped m event d with
      policyId := some policyId
      accepted := true
      httpStatus := some status
      enforcementStatus := enforcementStatus
      enforced := enforced
      pollDurationMs := m.pollDurationMs
      evidencePersistFailed := persistFailed }, l)

/-- Step 7: the emit, and an audit row for every way it can fail. -/
def emit (d : Decision) (l : Ledger) : Except PyErr PipelineResult × Ledger :=
  match pl.a1.emitPolicy pl.store d.policyType d.payload m.policyId d.record d.certificate l with
  | (.ok (policyId, status), l) => pl.accepted m event d policyId status false l
  | (.error (.evidencePersist policyId status), l) =>
    let retried := pl.store.append (flag d.record "evidence_persist_failed" (.bool true)) l
    pl.accepted m event d policyId status true retried.2
  | (.error (.httpError status), l) => pl.emitFailed m event d status l
  | (.error .circuitBreakerError, l) => pl.emitFailed m event d none l
  | (.error (.other e), l) =>
    (.error e, (pl.store.append (flag d.record "emit_failed" (.bool true)) l).2)

/-- Steps 5 to 8 of `process_event`. -/
def dispatch (d : Decision) (l : Ledger) : Except PyErr PipelineResult × Ledger :=
  if !d.failures.isEmpty || d.certificate.emitBlocked then pl.refuse m event d l
  else if envTruthy m.dryRun then pl.suppress m event d l
  else pl.emit m event d l

def processEvent (l : Ledger) : Except PyErr PipelineResult × Ledger :=
  match pl.decide m event with
  | .error e => (.error e, l)
  | .ok d => pl.dispatch m event d l

end DecisionPipeline
end HorizonRic.Rapp
