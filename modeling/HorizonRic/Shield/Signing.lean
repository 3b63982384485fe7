import HorizonRic.Shield.Certificate
import HorizonRic.Library.SignatureScheme
import HorizonRic.Python.JsonCanonical

/-!
`shield/signing.py`: Ed25519 signatures over the canonical JSON of a certificate,
without the two signature fields. The scheme is a parameter.
-/
namespace HorizonRic

open Py Json

/-- None is written as null. -/
def orNull (write : α → Value) : Option α → Value
  | none => .null
  | some a => write a

def ConstraintViolation.toDict (v : ConstraintViolation) : Dict Value :=
  [("constraint_id", .str v.constraintId), ("severity", .str v.severity),
    ("margin_dB", orNull Value.float v.marginDB), ("message", .str v.message)]

def InvariantCheck.toDict (c : InvariantCheck) : Dict Value :=
  [("invariant_id", .str c.invariantId), ("satisfied", .bool c.satisfied),
    ("margin", orNull Value.float c.margin), ("unit", .str c.unit), ("detail", .str c.detail)]

namespace SafetyCertificate

/-- The builtin `min` over the dB margins. -/
def minMarginDB (c : SafetyCertificate) : Option Number :=
  match c.invariants.filterMap fun check => if check.unit = "dB" then check.margin else none with
  | [] => none
  | margin :: rest => some (rest.foldl Number.min margin)

def toDict (c : SafetyCertificate) : Dict Value :=
  [("decision_id", .str c.decisionId), ("issued_at", .str c.issuedAt),
    ("loop_tier", .str c.loopTier), ("block", .str c.block),
    ("action_proposed", .dict c.actionProposed), ("action_safe", .dict c.actionSafe),
    ("invariants", .list (c.invariants.map fun check => .dict check.toDict)),
    ("corrections", .list (c.corrections.map fun v => .dict v.toDict)),
    ("violated_ids", .list (c.violatedIds.map Value.str)), ("projected", .bool c.projected),
    ("fallback_used", .bool c.fallbackUsed), ("fallback_to", c.fallbackTo),
    ("safe", .bool c.safe), ("emit_blocked", .bool c.emitBlocked),
    ("min_margin_dB", orNull Value.float c.minMarginDB), ("rng_seed", orNull Value.int c.rngSeed),
    ("model_provenance", orNull Value.dict c.modelProvenance),
    ("signature", orNull Value.str c.signature),
    ("signing_key_fingerprint", orNull Value.str c.signingKeyFingerprint)]

end SafetyCertificate

def signatureFields : List String := ["signature", "signing_key_fingerprint"]

/-- `to_dict` after the pops. -/
def signedPayload (c : SafetyCertificate) : Dict Value :=
  c.toDict.filter fun item => decide (item.1 ∉ signatureFields)

section
variable (py : Interpreter)

def canonicalCertificateBytes (c : SafetyCertificate) : Except PyErr Bytes := do
  let text ← dumps py compact (.dict (signedPayload c))
  .ok (utf8 text)

/-- What the module takes from `cryptography` and `hashlib`. -/
structure Ed25519 extends SignatureScheme Bytes Bytes where
  rawPublic : PublicKey → Bytes
  sha256 : Bytes → Digest

variable (ed : Ed25519)

def keyFingerprint (publicKey : ed.PublicKey) : String := (ed.sha256 (ed.rawPublic publicKey)).hex

def signCertificate (c : SafetyCertificate) (privateKey : ed.PrivateKey) :
    Except PyErr String := do
  let bytes ← canonicalCertificateBytes py c
  .ok (hexText (ed.sign privateKey bytes))

def signedCertificate (c : SafetyCertificate) (privateKey : ed.PrivateKey) :
    Except PyErr SafetyCertificate := do
  let signature ← signCertificate py ed c privateKey
  .ok { c with
    signature := some signature
    signingKeyFingerprint := some (keyFingerprint ed (ed.publicKey privateKey)) }

def verifyCertificate (c : SafetyCertificate) (publicKey : ed.PublicKey) : Except PyErr Bool :=
  match c.signature with
  | none => .ok false
  | some text =>
    if text = "" then .ok false
    else match fromHex text with
      | .error _ => .ok false
      | .ok signature => do
        let bytes ← canonicalCertificateBytes py c
        .ok (ed.verify publicKey signature bytes)

end
end HorizonRic
