import HorizonRic.Provenance.Signing
import HorizonRic.Library.SeparatedFields
import HorizonRic.Shield.Soundness

/-!
What a provenance signature binds. The signed text joins the fields with bars, and the
manifest digest and the trainer id are the record's own strings: the signature stands for
one triple exactly when neither of the two contains a bar.
-/
namespace HorizonRic.Provenance

open Py Json SeparatedFields

/-- The properties of RSA-PSS that the records rest on, SHA-256 inside it included. -/
structure RsaPss.Secure (rsa : RsaPss) : Prop where
  verifies : ∀ key message,
    rsa.verify (rsa.publicKey key) (rsa.sign key message) message = true
  binding : rsa.Binding
  loads : ∀ key, rsa.loadDer (rsa.exportDer key) = .ok key

theorem hex_no_bar (d : Digest) : '|' ∉ d.hex.toList := by
  have digits : ∀ n < 16, hexDigit n ≠ '|' := by decide
  intro inside
  rw [Digest.hex, String.toList_ofList, List.mem_flatMap] at inside
  obtain ⟨b, _, inside⟩ := inside
  have bound : b.toNat < 256 := b.toNat_lt
  rcases List.mem_cons.mp inside with here | inside
  · exact digits (b.toNat / 16) (by omega) here.symm
  · exact digits (b.toNat % 16) (by omega) (List.mem_singleton.mp inside).symm

section
variable {rsa : RsaPss} {weights : Bytes} {p : ModelProvenance} {trusted : Option Bytes}

/-- Manifest digest and trainer id as they stand at the end of the signed text. -/
def tail (p : ModelProvenance) : List Char := p.manifestSha256.toList ++ '|' :: p.trainerId.toList

theorem payload_eq_iff {a b : Bytes} {p q : ModelProvenance}
    (weightsP : sha256Hex rsa a = p.weightsSha256) (weightsQ : sha256Hex rsa b = q.weightsSha256) :
    q.payload = p.payload ↔ rsa.sha256 b = rsa.sha256 a ∧ tail q = tail p := by
  have texts : q.payload = p.payload ↔
      q.weightsSha256.toList ++ '|' :: tail q = p.weightsSha256.toList ++ '|' :: tail p := by
    unfold ModelProvenance.payload signingPayload tail
    constructor
    · intro same
      have chars := congrArg String.toList (utf8_injective same)
      simpa [List.append_assoc] using chars
    · intro same
      apply congrArg utf8
      apply String.toList_inj.mp
      simpa [List.append_assoc] using same
  rw [texts, ← weightsP, ← weightsQ]
  constructor
  · intro joined
    obtain ⟨hashes, tails⟩ := first_ends (hex_no_bar _) (hex_no_bar _) joined
    exact ⟨hex_injective (String.toList_inj.mp hashes), tails⟩
  · rintro ⟨hashes, tails⟩
    rw [sha256Hex, sha256Hex, hashes, tails]

variable (rsa) in
/-- No record with the same signature and key verifies for another triple. -/
def BindsTriple (messages : Set Bytes) (weights : Bytes) (p : ModelProvenance) : Prop :=
  ∀ weights' ∈ messages, ∀ (q : ModelProvenance) (trusted : Option Bytes),
    fromHex q.signatureHex = fromHex p.signatureHex →
    fromHex q.publicKeyDerHex = fromHex p.publicKeyDerHex →
    verifyModel rsa weights' q trusted = .ok true →
    weights' = weights ∧ q.manifestSha256 = p.manifestSha256 ∧ q.trainerId = p.trainerId

/-- Two accepted records with one signature and one key were signed as one text. -/
theorem payload_of_accepted (binding : rsa.Binding) {weights' : Bytes} {q : ModelProvenance}
    {trusted' : Option Bytes} (accepted : verifyModel rsa weights p trusted = .ok true)
    (accepted' : verifyModel rsa weights' q trusted' = .ok true)
    (signatures : fromHex q.signatureHex = fromHex p.signatureHex)
    (keys : fromHex q.publicKeyDerHex = fromHex p.publicKeyDerHex) : q.payload = p.payload := by
  obtain ⟨_, embedded, pub, signature, der, _, loaded, spelled, verifies⟩ :=
    (verifyModel_true_iff rsa weights p trusted).mp accepted
  obtain ⟨_, embedded', pub', signature', der', _, loaded', spelled', verifies'⟩ :=
    (verifyModel_true_iff rsa weights' q trusted').mp accepted'
  have sameKey : embedded' = embedded := by
    rw [der', der] at keys
    exact Except.ok.inj keys
  have sameSignature : signature' = signature := by
    rw [spelled', spelled] at signatures
    exact Except.ok.inj signatures
  rw [sameKey, loaded] at loaded'
  cases loaded'
  rw [sameSignature] at verifies'
  exact binding pub signature p.payload q.payload verifies verifies'

/-- The verdict depends on the manifest digest and the trainer id through the signed text. -/
theorem accepted_of_payload {q : ModelProvenance}
    (accepted : verifyModel rsa weights p trusted = .ok true)
    (hashes : q.weightsSha256 = p.weightsSha256)
    (signatures : fromHex q.signatureHex = fromHex p.signatureHex)
    (keys : fromHex q.publicKeyDerHex = fromHex p.publicKeyDerHex)
    (payloads : q.payload = p.payload) :
    verifyModel rsa weights q trusted = .ok true := by
  rw [verifyModel_true_iff] at accepted ⊢
  rw [hashes, signatures, keys, payloads]
  exact accepted

/-- The record with another manifest digest and trainer id, signature and key as they are. -/
def reread (p : ModelProvenance) (manifestSha256 trainerId : List Char) : ModelProvenance :=
  { p with
    manifestSha256 := String.ofList manifestSha256
    trainerId := String.ofList trainerId }

theorem tail_reread (p : ModelProvenance) (manifestSha trainer : List Char) :
    tail (reread p manifestSha trainer) = manifestSha ++ '|' :: trainer := by
  simp [tail, reread]

theorem bindsTriple_of_accepted {messages : Set Bytes} (binding : rsa.Binding)
    (free : Set.InjOn rsa.sha256 messages) (member : weights ∈ messages)
    (accepted : verifyModel rsa weights p trusted = .ok true) :
    BindsTriple rsa messages weights p ↔
      UniqueReading '|' p.manifestSha256.toList p.trainerId.toList := by
  have matching := ((verifyModel_true_iff rsa weights p trusted).mp accepted).1
  constructor
  · intro binds manifestSha trainer joined
    have payloads : (reread p manifestSha trainer).payload = p.payload :=
      (payload_eq_iff matching (q := reread p manifestSha trainer) matching).mpr
        ⟨rfl, (tail_reread p manifestSha trainer).trans joined⟩
    have forged := accepted_of_payload (q := reread p manifestSha trainer) accepted rfl rfl rfl
      payloads
    obtain ⟨_, manifests, trainers⟩ :=
      binds weights member (reread p manifestSha trainer) trusted rfl rfl forged
    constructor
    · simpa [reread] using congrArg String.toList manifests
    · simpa [reread] using congrArg String.toList trainers
  · intro unique weights' member' q trusted' signatures keys accepted'
    have matching' := ((verifyModel_true_iff rsa weights' q trusted').mp accepted').1
    have payloads := payload_of_accepted binding accepted accepted' signatures keys
    obtain ⟨hashes, tails⟩ := (payload_eq_iff matching matching').mp payloads
    obtain ⟨manifests, trainers⟩ := unique _ _ tails
    exact ⟨free member' member hashes, String.toList_inj.mp manifests,
      String.toList_inj.mp trainers⟩

variable {py : Interpreter} {trainerId keyLabel now : String} {manifest : Dict Value}
  {hsm : Hsm rsa}

theorem signModel_accepted (secure : rsa.Secure)
    (signed : signModel py rsa weights trainerId manifest hsm keyLabel now = .ok p) :
    verifyModel rsa weights p none = .ok true := by
  obtain ⟨manifestSha, _, signed⟩ := bind_eq_ok signed
  cases signed
  rw [verifyModel_true_iff]
  refine ⟨rfl, _, _, _, fromHex_hexText _, ?_, secure.loads _, fromHex_hexText _,
    secure.verifies _ _⟩
  intro t given
  cases given

/-- The manifest digest of a signed record is hexadecimal, the trainer id is the caller's. -/
theorem signModel_fields
    (signed : signModel py rsa weights trainerId manifest hsm keyLabel now = .ok p) :
    '|' ∉ p.manifestSha256.toList ∧ p.trainerId = trainerId := by
  obtain ⟨manifestSha, digest, signed⟩ := bind_eq_ok signed
  obtain ⟨canonical, _, digest⟩ := bind_eq_ok digest
  cases digest
  cases signed
  exact ⟨hex_no_bar _, rfl⟩

/-- An accepted record binds its triple exactly if neither string holds a bar; one that
    `sign_model` made, exactly if the trainer id holds none. -/
theorem bindsTriple_iff (py : Interpreter) (rsa : RsaPss) (secure : rsa.Secure)
    (messages : Set Bytes) (free : Set.InjOn rsa.sha256 messages) (weights : Bytes)
    (member : weights ∈ messages) :
    (∀ p trusted, verifyModel rsa weights p trusted = .ok true →
        (BindsTriple rsa messages weights p ↔
          '|' ∉ p.manifestSha256.toList ∧ '|' ∉ p.trainerId.toList)) ∧
      ∀ p trainerId manifest hsm keyLabel now,
        signModel py rsa weights trainerId manifest hsm keyLabel now = .ok p →
        verifyModel rsa weights p none = .ok true ∧
          (BindsTriple rsa messages weights p ↔ '|' ∉ trainerId.toList) := by
  have binds_iff : ∀ p trusted, verifyModel rsa weights p trusted = .ok true →
      (BindsTriple rsa messages weights p ↔
        '|' ∉ p.manifestSha256.toList ∧ '|' ∉ p.trainerId.toList) := by
    intro p trusted accepted
    exact (bindsTriple_of_accepted secure.binding free member accepted).trans uniqueReading_iff
  constructor
  · exact binds_iff
  · intro p trainerId manifest hsm keyLabel now signed
    have accepted := signModel_accepted secure signed
    obtain ⟨clean, trainer⟩ := signModel_fields signed
    refine ⟨accepted, ?_⟩
    rw [binds_iff p none accepted, trainer]
    exact and_iff_right clean

end

/-! A scheme whose signature is the message behind a one, and whose digest is its start. -/

def plainRsa : RsaPss where
  PrivateKey := Unit
  PublicKey := Unit
  publicKey _ := ()
  sign _ message := 1 :: message
  verify _ signature message := decide (signature = 1 :: message)
  exportDer _ := []
  loadDer _ := .ok ()
  sha256 message := ⟨(message ++ List.replicate 32 0).take 32, by simp⟩

theorem plainRsa_secure : plainRsa.Secure where
  verifies key message := by simp [plainRsa]
  binding key signature message other accepted accepted' := by
    have own := of_decide_eq_true accepted
    have others := of_decide_eq_true accepted'
    exact (List.cons.inj (others.symm.trans own)).2
  loads _ := rfl

/-- No collision between the empty weights and the text of the empty manifest. -/
theorem plainRsa_injOn : Set.InjOn plainRsa.sha256 {[], utf8 "\x7b\x7d"} := by
  have differ : plainRsa.sha256 (utf8 "\x7b\x7d") ≠ plainRsa.sha256 [] := by
    intro same
    have bytes := congrArg Digest.bytes same
    revert bytes
    decide
  intro a memberA b memberB same
  rcases memberA with rfl | rfl <;> rcases memberB with rfl | rfl
  · rfl
  · exact absurd same.symm differ
  · exact absurd same differ
  · rfl

def emptyHsm : Hsm plainRsa := ⟨[], ()⟩

/-- The record of empty weights and an empty manifest. -/
theorem sample_signed (trainerId : String) : ∃ p,
    signModel plainInterpreter plainRsa [] trainerId [] emptyHsm "model-signer" "now" = .ok p := by
  have dumped := dumps_readable plainInterpreter compact (v := .dict []) (by
    rw [readable_dict]
    exact ⟨List.nodup_nil, fun item member => by cases member⟩)
  unfold signModel manifestDigest
  rw [dumped]
  exact ⟨_, rfl⟩

theorem bindsTriple_sample : ∃ p,
    signModel plainInterpreter plainRsa [] "trainer-a" [] emptyHsm "model-signer" "now" = .ok p ∧
      BindsTriple plainRsa {[], utf8 "\x7b\x7d"} [] p := by
  obtain ⟨p, signed⟩ := sample_signed "trainer-a"
  have binds := (bindsTriple_iff plainInterpreter plainRsa plainRsa_secure _ plainRsa_injOn []
    (Or.inl rfl)).2 p "trainer-a" [] emptyHsm "model-signer" "now" signed
  exact ⟨p, signed, binds.2.mpr (by decide)⟩

/-- From a record for the trainer a|b, one for the trainer b under another digest. -/
theorem barred_trainer_rereads : plainRsa.Secure ∧
    Set.InjOn plainRsa.sha256 {[], utf8 "\x7b\x7d"} ∧ ∃ p q,
    signModel plainInterpreter plainRsa [] "a|b" [] emptyHsm "model-signer" "now" = .ok p ∧
      verifyModel plainRsa [] p none = .ok true ∧ verifyModel plainRsa [] q none = .ok true ∧
      q.signatureHex = p.signatureHex ∧ q.publicKeyDerHex = p.publicKeyDerHex ∧
      q.manifestSha256 ≠ p.manifestSha256 ∧ p.trainerId = "a|b" ∧ q.trainerId = "b" := by
  obtain ⟨p, signed⟩ := sample_signed "a|b"
  have accepted := signModel_accepted plainRsa_secure signed
  obtain ⟨clean, trainer⟩ := signModel_fields signed
  have matching := ((verifyModel_true_iff plainRsa [] p none).mp accepted).1
  let q := reread p (p.manifestSha256.toList ++ ['|', 'a']) ['b']
  have payloads : q.payload = p.payload := by
    refine (payload_eq_iff matching (q := q) matching).mpr ⟨rfl, ?_⟩
    rw [tail_reread, tail, trainer]
    simp
  refine ⟨plainRsa_secure, plainRsa_injOn, p, q, signed, accepted, accepted_of_payload (q := q) accepted rfl rfl rfl payloads, rfl,
    rfl, ?_, trainer, rfl⟩
  intro same
  have chars : p.manifestSha256.toList ++ ['|', 'a'] = p.manifestSha256.toList := by
    simpa [q, reread] using congrArg String.toList same
  exact clean (chars ▸ by simp)

end HorizonRic.Provenance
