import HorizonRic.Python.Base64
import HorizonRic.Python.Raises
import HorizonRic.Library.SignatureScheme

/-!
`evidence/rfc3161.py`: verification of anchors. The decoder of timestamp responses and the
signatures of the timestamp authorities are parameters; the decoder only parses.
-/
namespace HorizonRic.Rfc3161

open Py

/-- A decoded response. The token inside it is parsed when it is read. -/
structure TimestampResponse (TstInfo : Type) where
  status : Int
  tstInfo : Except PyErr TstInfo
  signature : Bytes

/-- The client package, and the authorities whose signatures count. -/
structure TimestampClient where
  TstInfo : Type
  messageImprint : TstInfo → Bytes
  decodeTimestampResponse : Bytes → Except PyErr (TimestampResponse TstInfo)
  authorities : SignatureScheme TstInfo Bytes
  isAuthority : authorities.PublicKey → Prop

structure TimestampAnchor where
  tsaUrl : String
  tokenB64 : String
  chainHeadHex : String
  genTimeUtcIso : String
  anchoredAtUnix : Number

def TimestampAnchor.toRecord (a : TimestampAnchor) : Dict Value :=
  [("type", .str "rfc3161_anchor"), ("tsa", .str a.tsaUrl), ("token_b64", .str a.tokenB64),
    ("chain_head_hex", .str a.chainHeadHex), ("gen_time_utc", .str a.genTimeUtcIso),
    ("anchored_at_unix", .float a.anchoredAtUnix)]

inductive AnchorError where
  | timestamp (message : String)
  | raised (e : PyErr)

/-- What `verify_anchor` takes from an anchor or its record. -/
structure AnchorFields where
  tokenB64 : Value
  chainHeadHex : Value
  tsa : Value

def anchorFields (rec : Dict Value) : AnchorFields where
  tokenB64 := rec.getD "token_b64" .null
  chainHeadHex := rec.getD "chain_head_hex" .null
  tsa := rec.getD "tsa" (.str "<unknown>")

def TimestampAnchor.fields (a : TimestampAnchor) : AnchorFields :=
  ⟨.str a.tokenB64, .str a.chainHeadHex, .str a.tsaUrl⟩

def raisedBy (x : Except PyErr α) : Except AnchorError α :=
  match x with
  | .ok a => .ok a
  | .error e => .error (.raised e)

/-- `base64.b64decode` of a value: text only. -/
def decodeToken : Value → Except PyErr Bytes
  | .str text => b64decode text
  | _ => .error .typeError

/-- `bytes.fromhex` of a value. -/
def headBytes : Value → Except PyErr Bytes
  | .str text => fromHex text
  | _ => .error .typeError

section
variable (py : Interpreter) (client : TimestampClient)

/-- A refusal prints the authority into its message. -/
def refuse (tsa : Value) (message : String → String) : Except AnchorError Bool := do
  let text ← raisedBy (tsa.toStr py)
  .error (.timestamp (message text))

def verifyFields (a : AnchorFields) (expected : Option String) : Except AnchorError Bool :=
  if !a.tokenB64.truthy || !a.chainHeadHex.truthy then
    .error (.timestamp "anchor missing token_b64 / chain_head_hex")
  else do
    let body ← raisedBy (decodeToken a.tokenB64)
    let resp ← raisedBy (client.decodeTimestampResponse body)
    if resp.status ≠ 0 then
      refuse py a.tsa fun tsa =>
        "anchor for TSA " ++ tsa ++ " has non-zero status " ++ toString resp.status
    else
      let info ← raisedBy resp.tstInfo
      let chainHead ← raisedBy (headBytes a.chainHeadHex)
      if client.messageImprint info ≠ chainHead then
        refuse py a.tsa fun tsa =>
          "TSA " ++ tsa ++ " anchor message-imprint != recorded chain head"
      else match expected with
        | none => .ok true
        | some head =>
          if a.chainHeadHex.eqStr head then .ok true
          else do
            let recorded ← raisedBy (a.chainHeadHex.toStr py)
            refuse py a.tsa fun tsa =>
              "TSA " ++ tsa ++ " anchor head " ++ recorded ++ " != expected " ++ head

/-- `verify_anchor` of a record. -/
def verifyAnchor (rec : Dict Value) (expected : Option String) : Except AnchorError Bool :=
  verifyFields py client (anchorFields rec) expected

/-- `verify_anchor` of an anchor object. -/
def TimestampAnchor.verify (a : TimestampAnchor) (expected : Option String) :
    Except AnchorError Bool :=
  verifyFields py client a.fields expected

/-- The record of an anchor verifies as the anchor does. -/
theorem verifyAnchor_toRecord (a : TimestampAnchor) (expected : Option String) :
    verifyAnchor py client a.toRecord expected = a.verify py client expected := by
  have fields : anchorFields a.toRecord = a.fields := by
    simp [anchorFields, TimestampAnchor.toRecord, TimestampAnchor.fields, Dict.getD]
  rw [verifyAnchor, fields, TimestampAnchor.verify]

end

/-- `rec.get("type") == "rfc3161_anchor"`. -/
def isAnchor (rec : Dict Value) : Bool := (rec.getD "type" .null).eqStr "rfc3161_anchor"

inductive ChainError where
  | lookupFailed (index : ℕ) (cause : PyErr)
  | raised (e : PyErr)

section
variable (py : Interpreter) (client : TimestampClient)
  (chainHeadLookup : ℕ → Except PyErr (Option String))

/-- One turn of the loop on an anchor: whether the walk goes on. -/
def judgeAnchor (index : ℕ) (rec : Dict Value) : Except ChainError Bool :=
  match chainHeadLookup index with
  | .error cause => .error (.lookupFailed index cause)
  | .ok expected =>
    match verifyAnchor py client rec expected with
    | .ok _ => .ok true
    | .error (.timestamp _) => .ok false
    | .error (.raised e) => .error (.raised e)

/-- The loop from an index on. -/
def verifyFrom (index : ℕ) : List (Dict Value) → Except ChainError Int
  | [] => .ok (-1)
  | rec :: rest =>
    if isAnchor rec then do
      let accepted ← judgeAnchor py client chainHeadLookup index rec
      if accepted then verifyFrom (index + 1) rest else .ok index
    else verifyFrom (index + 1) rest

def verifyChainWithAnchors (chainRecords : List (Dict Value)) : Except ChainError Int :=
  verifyFrom py client chainHeadLookup 0 chainRecords

end
end HorizonRic.Rfc3161
