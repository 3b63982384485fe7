import HorizonRic.Library.SignatureScheme
import HorizonRic.Python.JsonCanonical

/-!
`provenance/signing.py`: a trainer signs the digests of the weights and of the training
manifest and its own id; the record carries the signature and the public key.
The key store is the in-memory one of `security/hsm.py`, RSA-PSS is a parameter.
-/
namespace HorizonRic.Provenance

open Py Json

def provVersion : String := "horizon-prov-v1"

/-- What the module takes from `cryptography` and `hashlib`. A private key is taken with the
    salt that its next signature draws. -/
structure RsaPss extends SignatureScheme Bytes Bytes where
  exportDer : PublicKey → Bytes
  loadDer : Bytes → Except PyErr PublicKey
  sha256 : Bytes → Digest

structure ModelProvenance where
  weightsSha256 : String
  manifestSha256 : String
  trainerId : String
  sigAlg : String
  signatureHex : String
  publicKeyDerHex : String
  createdAt : String
  deriving DecidableEq

def signingPayload (weightsSha manifestSha trainerId : String) : Bytes :=
  utf8 (provVersion ++ "|" ++ weightsSha ++ "|" ++ manifestSha ++ "|" ++ trainerId)

section
variable (py : Interpreter) (rsa : RsaPss)

def sha256Hex (data : Bytes) : String := (rsa.sha256 data).hex

def manifestDigest (manifest : Dict Value) : Except PyErr String := do
  let canonical ← dumps py compact (.dict manifest)
  .ok (sha256Hex rsa (utf8 canonical))

/-- The key pairs by label, and the pair that `generate_keypair` makes next. -/
structure Hsm where
  keys : Dict rsa.PrivateKey
  generated : rsa.PrivateKey

/-- A pair is generated for a new label. -/
def Hsm.signingKey {rsa : RsaPss} (hsm : Hsm rsa) (keyLabel : String) : rsa.PrivateKey :=
  (Dict.get? keyLabel hsm.keys).getD hsm.generated

def signModel (weights : Bytes) (trainerId : String) (trainingManifest : Dict Value)
    (hsm : Hsm rsa) (keyLabel now : String) : Except PyErr ModelProvenance := do
  let weightsSha := sha256Hex rsa weights
  let manifestSha ← manifestDigest py rsa trainingManifest
  let key := hsm.signingKey keyLabel
  let payload := signingPayload weightsSha manifestSha trainerId
  .ok {
    weightsSha256 := weightsSha
    manifestSha256 := manifestSha
    trainerId := trainerId
    sigAlg := "RSA-PSS-SHA256"
    signatureHex := hexText (rsa.sign key payload)
    publicKeyDerHex := hexText (rsa.exportDer (rsa.publicKey key))
    createdAt := now }

def ModelProvenance.payload (p : ModelProvenance) : Bytes :=
  signingPayload p.weightsSha256 p.manifestSha256 p.trainerId

def verifyModel (weights : Bytes) (provenance : ModelProvenance)
    (trustedPublicKeyDer : Option Bytes) : Except PyErr Bool :=
  if sha256Hex rsa weights ≠ provenance.weightsSha256 then .ok false
  else do
    let embeddedDer ← fromHex provenance.publicKeyDerHex
    if ∃ trusted ∈ trustedPublicKeyDer, trusted ≠ embeddedDer then .ok false
    else
      let pub ← rsa.loadDer embeddedDer
      -- a signature that is no hexadecimal text is caught with the invalid ones
      match fromHex provenance.signatureHex with
      | .error _ => .ok false
      | .ok signature => .ok (rsa.verify pub signature provenance.payload)

def verifyOrRaise (weights : Bytes) (provenance : ModelProvenance)
    (trustedPublicKeyDer : Option Bytes) : Except PyErr Unit := do
  let verified ← verifyModel rsa weights provenance trustedPublicKeyDer
  if verified then .ok () else .error (.other "ProvenanceError")

/-- `verify_model` answers True exactly when every check passes. -/
theorem verifyModel_true_iff (weights : Bytes) (p : ModelProvenance) (trusted : Option Bytes) :
    verifyModel rsa weights p trusted = .ok true ↔
      sha256Hex rsa weights = p.weightsSha256 ∧
        ∃ embedded pub signature, fromHex p.publicKeyDerHex = .ok embedded ∧
          (∀ t ∈ trusted, t = embedded) ∧ rsa.loadDer embedded = .ok pub ∧
          fromHex p.signatureHex = .ok signature ∧
          rsa.verify pub signature p.payload = true := by
  constructor
  · intro accepted
    unfold verifyModel at accepted
    split at accepted
    · cases accepted
    · rename_i matching
      obtain ⟨embedded, der, accepted⟩ := bind_eq_ok accepted
      split at accepted
      · cases accepted
      · rename_i pinned
        obtain ⟨pub, loaded, accepted⟩ := bind_eq_ok accepted
        split at accepted
        · cases accepted
        · rename_i signature spelled
          refine ⟨not_not.mp matching, embedded, pub, signature, der, ?_, loaded, spelled,
            Except.ok.inj accepted⟩
          intro t given
          by_contra other
          exact pinned ⟨t, given, other⟩
  · rintro ⟨matching, embedded, pub, signature, der, pinned, loaded, spelled, verifies⟩
    have agrees : ¬ ∃ t ∈ trusted, t ≠ embedded := by
      rintro ⟨t, given, other⟩
      exact other (pinned t given)
    rw [verifyModel, if_neg (not_not.mpr matching), der, ok_bind, if_neg agrees, loaded, ok_bind,
      spelled]
    exact congrArg Except.ok verifies

end
end HorizonRic.Provenance
