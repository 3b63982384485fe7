import HorizonRic.Provenance.Signing
import HorizonRic.Shield.Signing

/-!
The certificates of `federated/unlearning.py` and `federated/erasure.py`. Models stand as
the bytes of their float64 tables; the distances and the probe results are the caller's.
Each value is written twice, as a field and in the manifest whose digest is signed.
-/
namespace HorizonRic.Federated

open Py Json Provenance

structure UnlearningCertificate where
  removedClientIds : List String
  method : String
  unlearnMechanism : String
  modelSha256Before : String
  modelSha256After : String
  certifiedL2DistanceToRetrain : Number
  backdoorSuccessBefore : Option Number
  backdoorSuccessAfter : Option Number
  backdoorSuccessRetrain : Option Number
  createdAt : String
  manifest : Dict Value
  provenance : Option ModelProvenance

structure ErasureCertificate where
  subjectId : String
  clientId : String
  method : String
  modelSha256Before : String
  modelSha256After : String
  certifiedL2DistanceToRetrain : Number
  createdAt : String
  manifest : Dict Value
  provenance : Option ModelProvenance

/-- `sorted` on strings. -/
def sortedIds (ids : List String) : List String := ids.insertionSort fun a b => a ≤ b

def idList (ids : List String) : Value := .list (ids.map Value.str)

section
variable (py : Interpreter) (rsa : RsaPss)

/-- The checks of both `verify` methods, in their order. -/
def verifySigned (modelSha256After : String) (manifest : Dict Value)
    (provenance : Option ModelProvenance) (weights : Bytes)
    (trustedPublicKeyDer : Option Bytes) : Except PyErr Bool :=
  if sha256Hex rsa weights ≠ modelSha256After then .ok false
  else match provenance with
    | none => .ok false
    | some provenance => do
      let digest ← manifestDigest py rsa manifest
      if digest ≠ provenance.manifestSha256 then .ok false
      else verifyModel rsa weights provenance trustedPublicKeyDer

def UnlearningCertificate.verify (c : UnlearningCertificate) (unlearnedQ : Bytes)
    (trustedPublicKeyDer : Option Bytes) : Except PyErr Bool :=
  verifySigned py rsa c.modelSha256After c.manifest c.provenance unlearnedQ trustedPublicKeyDer

def ErasureCertificate.verify (c : ErasureCertificate) (globalAfter : Bytes)
    (trustedPublicKeyDer : Option Bytes) : Except PyErr Bool :=
  verifySigned py rsa c.modelSha256After c.manifest c.provenance globalAfter trustedPublicKeyDer

/-- The success rates of the probe on the three models. -/
structure BackdoorProbe where
  before : Number
  after : Number
  retrain : Number

/-- What a service signs with. -/
structure Signer where
  hsm : Hsm rsa
  trainerId : String
  keyLabel : String

/-- `created_at` of the certificate and of the record it signs. -/
structure Clock where
  certificate : String
  provenance : String

variable {rsa}

/-- The manifest that `certify_unlearning` signs. -/
def unlearningManifest (rsa : RsaPss) (poisonedQ unlearnedQ : Bytes) (distance : Number)
    (removedClientIds : List String) (method unlearnMechanism : String)
    (backdoor : Option BackdoorProbe) (createdAt : String) : Dict Value :=
  [("event", .str "federated_unlearning"),
    ("removed_client_ids", idList (sortedIds removedClientIds)),
    ("aggregation_method", .str method), ("unlearn_mechanism", .str unlearnMechanism),
    ("model_sha256_before", .str (sha256Hex rsa poisonedQ)),
    ("model_sha256_after", .str (sha256Hex rsa unlearnedQ)),
    ("certified_l2_distance_to_retrain", .float distance),
    ("backdoor_success_before", orNull Value.float (backdoor.map BackdoorProbe.before)),
    ("backdoor_success_after", orNull Value.float (backdoor.map BackdoorProbe.after)),
    ("backdoor_success_retrain", orNull Value.float (backdoor.map BackdoorProbe.retrain)),
    ("created_at", .str createdAt)]

def certifyUnlearning (poisonedQ unlearnedQ : Bytes) (distance : Number)
    (removedClientIds : List String) (method unlearnMechanism : String)
    (backdoor : Option BackdoorProbe) (signer : Signer rsa) (clock : Clock) :
    Except PyErr UnlearningCertificate := do
  let manifest := unlearningManifest rsa poisonedQ unlearnedQ distance removedClientIds method
    unlearnMechanism backdoor clock.certificate
  let provenance ← signModel py rsa unlearnedQ signer.trainerId manifest signer.hsm
    signer.keyLabel clock.provenance
  .ok {
    removedClientIds := sortedIds removedClientIds
    method := method
    unlearnMechanism := unlearnMechanism
    modelSha256Before := sha256Hex rsa poisonedQ
    modelSha256After := sha256Hex rsa unlearnedQ
    certifiedL2DistanceToRetrain := distance
    backdoorSuccessBefore := backdoor.map BackdoorProbe.before
    backdoorSuccessAfter := backdoor.map BackdoorProbe.after
    backdoorSuccessRetrain := backdoor.map BackdoorProbe.retrain
    createdAt := clock.certificate
    manifest := manifest
    provenance := some provenance }

/-- The manifest that `federated_erase_subject` signs. -/
def erasureManifest (rsa : RsaPss) (globalBefore globalAfter : Bytes) (distance : Number)
    (nErased : ℕ) (subjectId targetClient method createdAt : String) : Dict Value :=
  [("event", .str "subject_erasure_art17"), ("subject_id", .str subjectId),
    ("client_id", .str targetClient), ("aggregation_method", .str method),
    ("n_transitions_erased", .int nErased),
    ("model_sha256_before", .str (sha256Hex rsa globalBefore)),
    ("model_sha256_after", .str (sha256Hex rsa globalAfter)),
    ("certified_l2_distance_to_retrain", .float distance), ("created_at", .str createdAt)]

/-- The certificate that `federated_erase_subject` builds at its end. -/
def certifyErasure (globalBefore globalAfter : Bytes) (distance : Number) (nErased : ℕ)
    (subjectId targetClient method : String) (signer : Signer rsa) (clock : Clock) :
    Except PyErr ErasureCertificate := do
  let manifest := erasureManifest rsa globalBefore globalAfter distance nErased subjectId
    targetClient method clock.certificate
  let provenance ← signModel py rsa globalAfter signer.trainerId manifest signer.hsm
    signer.keyLabel clock.provenance
  .ok {
    subjectId := subjectId
    clientId := targetClient
    method := method
    modelSha256Before := sha256Hex rsa globalBefore
    modelSha256After := sha256Hex rsa globalAfter
    certifiedL2DistanceToRetrain := distance
    createdAt := clock.certificate
    manifest := manifest
    provenance := some provenance }

end

/-! The two kinds together. -/

inductive Certificate where
  | unlearning (c : UnlearningCertificate)
  | erasure (c : ErasureCertificate)

namespace Certificate

def manifest : Certificate → Dict Value
  | unlearning c => c.manifest
  | erasure c => c.manifest

def provenance : Certificate → Option ModelProvenance
  | unlearning c => c.provenance
  | erasure c => c.provenance

def modelSha256After : Certificate → String
  | unlearning c => c.modelSha256After
  | erasure c => c.modelSha256After

def verify (py : Interpreter) (rsa : RsaPss) : Certificate → Bytes → Option Bytes →
    Except PyErr Bool
  | unlearning c => c.verify py rsa
  | erasure c => c.verify py rsa

/-- Every field but manifest and provenance, under the key that the manifest has for it. -/
def recorded : Certificate → Dict Value
  | unlearning c =>
    [("removed_client_ids", idList c.removedClientIds), ("aggregation_method", .str c.method),
      ("unlearn_mechanism", .str c.unlearnMechanism),
      ("model_sha256_before", .str c.modelSha256Before),
      ("model_sha256_after", .str c.modelSha256After),
      ("certified_l2_distance_to_retrain", .float c.certifiedL2DistanceToRetrain),
      ("backdoor_success_before", orNull Value.float c.backdoorSuccessBefore),
      ("backdoor_success_after", orNull Value.float c.backdoorSuccessAfter),
      ("backdoor_success_retrain", orNull Value.float c.backdoorSuccessRetrain),
      ("created_at", .str c.createdAt)]
  | erasure c =>
    [("subject_id", .str c.subjectId), ("client_id", .str c.clientId),
      ("aggregation_method", .str c.method), ("model_sha256_before", .str c.modelSha256Before),
      ("model_sha256_after", .str c.modelSha256After),
      ("certified_l2_distance_to_retrain", .float c.certifiedL2DistanceToRetrain),
      ("created_at", .str c.createdAt)]

/-- Every recorded field has its value in the manifest. -/
def Matches (c : Certificate) (manifest : Dict Value) : Prop :=
  ∀ item ∈ c.recorded, Dict.get? item.1 manifest = some item.2

end Certificate

/-- A certificate as its service issues it, with the bytes of the model it is for. -/
inductive Issued (py : Interpreter) (rsa : RsaPss) : Certificate → Bytes → Prop
  | unlearning {c before after distance removed method mechanism backdoor signer clock}
      (issued : certifyUnlearning py before after distance removed method mechanism
        backdoor (signer : Signer rsa) clock = .ok c) : Issued py rsa (.unlearning c) after
  | erasure {c before after distance nErased subject target method signer clock}
      (issued : certifyErasure py before after distance nErased subject target method
        (signer : Signer rsa) clock = .ok c) : Issued py rsa (.erasure c) after

end HorizonRic.Federated
