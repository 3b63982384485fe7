import HorizonRic.Evidence.SchemaRoundTrip
import HorizonRic.Library.CriticalSection
import Mathlib.Logic.Function.Basic

/-!
`evidence/store.py`: the JSONL file and the SQLite table, appending under the
store's lock, iteration inside and outside a tenant scope, and verification of
the per-tenant hash chains. SHA-256 is a function to digests of 32 bytes.
-/
namespace HorizonRic.Evidence

open Py Json

/-- What the store is built on. -/
structure Platform where
  py : Interpreter
  pydantic : Pydantic
  sha256 : Bytes → Digest

def unscopedTenant : String := "_unscoped_"

/-- `_resolve_tenant`, in the scope of `current_tenant()`. -/
def resolveTenant : Option String → String
  | some t => if t = "" then unscopedTenant else t
  | none => unscopedTenant

/-- The record as `append` persists it: stamped with the active tenant if it has none. -/
def stamp (scope : Option String) (r : DecisionRecord) : DecisionRecord :=
  match r.tenantId with
  | some _ => r
  | none => { r with tenantId := some (resolveTenant scope) }

/-- `record.tenant_id or _UNSCOPED_TENANT`. -/
def tenantOf (r : DecisionRecord) : String :=
  match r.tenantId with
  | some t => if t = "" then unscopedTenant else t
  | none => unscopedTenant

def bytesHex (bytes : Bytes) : String := String.ofList (bytes.flatMap hexByte)

section
variable (env : Platform)

/-- `_canonical_json`. -/
def canonicalJson (r : DecisionRecord) : Except PyErr String := dumps env.py compact r.modelDump

/-- `_chain`: the previous hash is whatever JSON value a row stores. -/
def chain (prev : Value) (payload : String) : Except PyErr String :=
  match prev with
  | .str hex => do
    let bytes ← fromHex hex
    .ok (env.sha256 (bytes ++ utf8 payload)).hex
  | _ => .error .typeError

/-- What iteration gives for one row: an exception, or the record and its stored hash. -/
abbrev Outcome := Except PyErr (DecisionRecord × Value)

/-- `verify`, from row `i` on; `prev tid` is `per_tenant_prev.get(tid, _ZERO_HASH_HEX)`. -/
def verifyFrom (i : Nat) (prev : String → Value) : List Outcome → Except PyErr Int
  | [] => .ok (-1)
  | .error e :: _ => .error e
  | .ok (r, stored) :: rest => do
    let payload ← canonicalJson env r
    let expected ← chain env (prev (tenantOf r)) payload
    if stored.eqStr expected then
      verifyFrom (i + 1) (Function.update prev (tenantOf r) stored) rest
    else .ok i

/-- `verify_tenant`, from its row `idx` on. -/
def verifyTenantFrom (tenant : String) (idx : Nat) (prev : Value) :
    List Outcome → Except PyErr Int
  | [] => .ok (-1)
  | .error e :: _ => .error e
  | .ok (r, stored) :: rest =>
    if tenantOf r = tenant then do
      let payload ← canonicalJson env r
      let expected ← chain env prev payload
      if stored.eqStr expected then verifyTenantFrom tenant (idx + 1) stored rest else .ok idx
    else verifyTenantFrom tenant idx prev rest

/-! The JSONL file. -/

/-- `value[key]` with a string key. -/
def subscript (v : Value) (key : String) : Except PyErr Value :=
  match v with
  | .dict d =>
    match Dict.get? key d with
    | some x => .ok x
    | none => .error .keyError
  | _ => .error .typeError

/-- `value.get(key)`. -/
def getKey (v : Value) (key : String) : Except PyErr Value :=
  match v with
  | .dict d => .ok (Dict.getD d key .null)
  | _ => .error .attributeError

/-- `DecisionRecord.model_validate`. -/
def modelValidate (c : Coercions) (v : Value) : Except PyErr DecisionRecord :=
  match validate env.pydantic c v with
  | some r => .ok r
  | none => .error .validationError

/-- `rec_tenant != active_tenant` does not skip the row. -/
def inScope (scope : Option String) (label : Value) : Bool :=
  match scope with
  | none => true
  | some t => label.eqStr t

/-- `obj.get("tenant_id") or rec.tenant_id or _UNSCOPED_TENANT`. -/
def rowLabel (given : Value) (r : DecisionRecord) : Value :=
  if given.truthy then given else .str (tenantOf r)

/-- The object of a line, in `JsonlEvidenceStore.__iter__`; none is a row it skips. -/
def readObject (scope : Option String) (obj : Value) :
    Except PyErr (Option (DecisionRecord × Value)) := do
  let record ← subscript obj "record"
  let r ← modelValidate env env.pydantic.python record
  let given ← getKey obj "tenant_id"
  if inScope scope (rowLabel given r) then do
    let stored ← subscript obj "hash"
    .ok (some (r, stored))
  else .ok none

/-- One line of `JsonlEvidenceStore.__iter__`; a blank one is skipped. -/
def readLine (scope : Option String) (line : List Char) :
    Except PyErr (Option (DecisionRecord × Value)) :=
  if strip line = [] then .ok none
  else do
    let obj ← loads env.py (strip line)
    readObject env scope obj

/-- The row a line contributes, if any. -/
def lineOutcome (scope : Option String) (line : List Char) : Option Outcome :=
  match readLine env scope line with
  | .ok (some row) => some (.ok row)
  | .ok none => none
  | .error e => some (.error e)

/-- The lines of the file as text mode reads them. -/
def linesOf (content : List Char) : List (List Char) := fileLines (universalNewlines content)

/-- The label by which `_last_hash_for_tenant` files a line. -/
def lineTenant (obj : Value) : Except PyErr Value := do
  let given ← getKey obj "tenant_id"
  if given.truthy then .ok given
  else
    let record ← match obj with
      | .dict d => .ok (Dict.getD d "record" (.dict []))
      | _ => .error .attributeError
    let inner ← getKey record "tenant_id"
    .ok (if inner.truthy then inner else .str unscopedTenant)

/-- `JsonlEvidenceStore._last_hash_for_tenant`, over the lines left. -/
def lastHashOfLines (tenant : String) (last : Value) : List (List Char) → Except PyErr Value
  | [] => .ok last
  | line :: rest =>
    if strip line = [] then lastHashOfLines tenant last rest
    else do
      let obj ← loads env.py line
      let label ← lineTenant obj
      if label.eqStr tenant then do
        let stored ← subscript obj "hash"
        lastHashOfLines tenant stored rest
      else lastHashOfLines tenant last rest

/-- The line that `append` writes. -/
def recordLine (tenant payload hash : String) : Except PyErr (List Char) := do
  let record ← loads env.py payload.toList
  let text ← dumps env.py spaced
    (.dict [("hash", .str hash), ("tenant_id", .str tenant), ("record", record)])
  .ok text.toList

/-! The SQLite table. -/

/-- A row of `decisions`; the list of rows is in the order of `seq`. -/
structure DecisionRow where
  decisionId : String
  tenantId : String
  payloadJson : String
  chainHash : Bytes

/-- `DecisionRecord.model_validate_json(payload_json)` with the row's hash. -/
def rowOutcome (row : DecisionRow) : Outcome :=
  match env.pydantic.scanJson row.payloadJson with
  | none => .error .validationError
  | some v =>
    match validate env.pydantic env.pydantic.json v with
    | none => .error .validationError
    | some r => .ok (r, .str (bytesHex row.chainHash))

def rowInScope (scope : Option String) (row : DecisionRow) : Bool :=
  match scope with
  | none => true
  | some t => row.tenantId == t

def lastHashOfRows (tenant : String) (rows : List DecisionRow) : Value :=
  match (rows.filter fun row => row.tenantId == tenant).getLast? with
  | some row => .str (bytesHex row.chainHash)
  | none => .str zeroHashHex

/-! Either store. -/

inductive EvidenceStore where
  | jsonl (content : List Char)
  | sqlite (rows : List DecisionRow)

namespace EvidenceStore

/-- `__iter__` inside the given scope; a consumer stops at the first exception. -/
def iter (scope : Option String) : EvidenceStore → List Outcome
  | .jsonl content => (linesOf content).filterMap (lineOutcome env scope)
  | .sqlite rows => (rows.filter (rowInScope scope)).map (rowOutcome env)

def verify (scope : Option String) (s : EvidenceStore) : Except PyErr Int :=
  verifyFrom env 0 (fun _ => .str zeroHashHex) (s.iter env scope)

def verifyTenant (scope : Option String) (tenant : String) (s : EvidenceStore) :
    Except PyErr Int :=
  verifyTenantFrom env tenant 0 (.str zeroHashHex) (s.iter env scope)

/-- `_last_hash_for_tenant`. -/
def lastHash (tenant : String) : EvidenceStore → Except PyErr Value
  | .jsonl content => lastHashOfLines env tenant (.str zeroHashHex) (linesOf content)
  | .sqlite rows => .ok (lastHashOfRows tenant rows)

/-- Writing one row: a line at the end of the file, or an insert that a used
    `decision_id` refuses. -/
def write (r : DecisionRecord) (payload hash : String) :
    EvidenceStore → Except PyErr EvidenceStore
  | .jsonl content => do
    let line ← recordLine env (tenantOf r) payload hash
    .ok (.jsonl (content ++ (line ++ ['\n'])))
  | .sqlite rows =>
    if rows.any (fun row => row.decisionId == r.decisionId) then
      .error (.other "IntegrityError")
    else do
      let bytes ← fromHex hash
      .ok (.sqlite (rows ++ [⟨r.decisionId, tenantOf r, payload, bytes⟩]))

/-- `append`, as the body of the append lock: the last hash of the tenant, the hash of the
    record after it, and the write. -/
def appendCall (scope : Option String) (record : DecisionRecord) :
    CriticalSection.Call EvidenceStore PyErr Value (String × String) String where
  read s := s.lastHash env (tenantOf (stamp scope record))
  compute prev := do
    let payload ← canonicalJson env (stamp scope record)
    let hash ← chain env prev payload
    .ok (payload, hash)
  write computed s := s.write env (stamp scope record) computed.1 computed.2
  result computed := computed.2

/-- `append(record)`: the store after it and the hash it returns. -/
def append (scope : Option String) (record : DecisionRecord) (s : EvidenceStore) :
    Except PyErr (EvidenceStore × String) := (appendCall env scope record).atomic s

end EvidenceStore
end
end HorizonRic.Evidence
