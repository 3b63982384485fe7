import HorizonRic.Federated.Certificates
import HorizonRic.Provenance.SignedPayload
import HorizonRic.Evidence.Append

/-!
What verification compares: the hash of the model, the manifest's digest and the signed
record. Every other field of a certificate is free, whatever the signed manifest says.
-/
namespace HorizonRic.Federated

open Py Json Provenance SeparatedFields

section
variable {py : Interpreter} {rsa : RsaPss} {weights : Bytes} {c issued : Certificate}

theorem verify_eq (py : Interpreter) (rsa : RsaPss) (c : Certificate) (weights : Bytes)
    (trusted : Option Bytes) : c.verify py rsa weights trusted =
      verifySigned py rsa c.modelSha256After c.manifest c.provenance weights trusted := by
  cases c <;> rfl

theorem verify_true_iff (py : Interpreter) (rsa : RsaPss) (c : Certificate) (weights : Bytes)
    (trusted : Option Bytes) : c.verify py rsa weights trusted = .ok true ↔
      sha256Hex rsa weights = c.modelSha256After ∧ ∃ p, c.provenance = some p ∧
        manifestDigest py rsa c.manifest = .ok p.manifestSha256 ∧
        verifyModel rsa weights p trusted = .ok true := by
  rw [verify_eq]
  constructor
  · intro accepted
    unfold verifySigned at accepted
    split at accepted
    · cases accepted
    · rename_i matching
      split at accepted
      · cases accepted
      · rename_i p carried
        obtain ⟨digest, digested, accepted⟩ := bind_eq_ok accepted
        split at accepted
        · cases accepted
        · rename_i same
          rw [not_not] at matching same
          exact ⟨matching, p, carried, same ▸ digested, accepted⟩
  · rintro ⟨matching, p, carried, digested, accepted⟩
    unfold verifySigned
    rw [if_neg (not_not.mpr matching), carried]
    simp only [digested, ok_bind, ne_eq, not_true_eq_false, if_false, accepted]

variable (py rsa) in
/-- Every model the certificate verifies for leaves its fields as `signed` has them. -/
def BoundTo (c : Certificate) (signed : Dict Value) : Prop :=
  ∀ weights trusted, c.verify py rsa weights trusted = .ok true → c.Matches signed

variable (rsa) in
/-- The record's signature verifies under its own key. -/
def SignatureHolds (p : ModelProvenance) : Prop :=
  ∃ embedded pub signature, fromHex p.publicKeyDerHex = .ok embedded ∧
    rsa.loadDer embedded = .ok pub ∧ fromHex p.signatureHex = .ok signature ∧
    rsa.verify pub signature p.payload = true

variable (py rsa) in
/-- Model hash, manifest and signed record agree. No other field of the certificate occurs. -/
structure Consistent (c : Certificate) (p : ModelProvenance) : Prop where
  carried : c.provenance = some p
  digest : manifestDigest py rsa c.manifest = .ok p.manifestSha256
  hash : p.weightsSha256 = c.modelSha256After
  model : ∃ weights, sha256Hex rsa weights = p.weightsSha256
  signature : SignatureHolds rsa p

theorem verifies_iff_consistent :
    (∃ weights trusted, c.verify py rsa weights trusted = .ok true) ↔
      ∃ p, Consistent py rsa c p := by
  constructor
  · rintro ⟨weights, trusted, accepted⟩
    obtain ⟨matching, p, carried, digest, accepted⟩ :=
      (verify_true_iff py rsa c weights trusted).mp accepted
    obtain ⟨hash, embedded, pub, signature, der, _, loaded, spelled, verifies⟩ :=
      (verifyModel_true_iff rsa weights p trusted).mp accepted
    exact ⟨p, carried, digest, hash.symm.trans matching, ⟨weights, hash⟩,
      embedded, pub, signature, der, loaded, spelled, verifies⟩
  · rintro ⟨p, consistent⟩
    obtain ⟨weights, hash⟩ := consistent.model
    obtain ⟨embedded, pub, signature, der, loaded, spelled, verifies⟩ := consistent.signature
    have unpinned : ∀ t ∈ (none : Option Bytes), t = embedded := by
      intro t given
      cases given
    refine ⟨weights, none, (verify_true_iff py rsa c weights none).mpr
      ⟨hash.trans consistent.hash, p, consistent.carried, consistent.digest, ?_⟩⟩
    rw [verifyModel_true_iff]
    exact ⟨hash, embedded, pub, signature, der, unpinned, loaded, spelled, verifies⟩

theorem boundTo_iff (c : Certificate) (signed : Dict Value) :
    BoundTo py rsa c signed ↔ (∃ p, Consistent py rsa c p) → c.Matches signed := by
  rw [← verifies_iff_consistent]
  constructor
  · rintro bound ⟨weights, trusted, accepted⟩
    exact bound weights trusted accepted
  · intro fields weights trusted accepted
    exact fields ⟨weights, trusted, accepted⟩

/-! Issued certificates. -/

/-- The keys of an issued manifest. -/
def Certificate.manifestKeys : Certificate → List String
  | .unlearning _ =>
    ["event", "removed_client_ids", "aggregation_method", "unlearn_mechanism",
      "model_sha256_before", "model_sha256_after", "certified_l2_distance_to_retrain",
      "backdoor_success_before", "backdoor_success_after", "backdoor_success_retrain",
      "created_at"]
  | .erasure _ =>
    ["event", "subject_id", "client_id", "aggregation_method", "n_transitions_erased",
      "model_sha256_before", "model_sha256_after", "certified_l2_distance_to_retrain",
      "created_at"]

theorem manifestKeys_nodup (c : Certificate) : c.manifestKeys.Nodup := by
  cases c with
  | unlearning c =>
    rw [Certificate.manifestKeys]
    decide
  | erasure c =>
    rw [Certificate.manifestKeys]
    decide

theorem issued_manifest (certified : Issued py rsa issued weights) :
    issued.manifest.map Prod.fst = issued.manifestKeys ∧
      ∀ item ∈ issued.recorded, item ∈ issued.manifest := by
  cases certified with
  | unlearning made =>
    obtain ⟨p, _, made⟩ := bind_eq_ok made
    cases made
    exact ⟨rfl, fun item member => List.mem_cons_of_mem _ member⟩
  | erasure made =>
    obtain ⟨p, _, made⟩ := bind_eq_ok made
    cases made
    refine ⟨rfl, fun item member => List.mem_cons_of_mem _ ?_⟩
    rcases List.mem_cons.mp member with rfl | member
    · exact List.mem_cons_self
    rcases List.mem_cons.mp member with rfl | member
    · exact List.mem_cons_of_mem _ List.mem_cons_self
    rcases List.mem_cons.mp member with rfl | member
    · exact List.mem_cons_of_mem _ (List.mem_cons_of_mem _ List.mem_cons_self)
    -- the count of erased transitions stands before the hashes
    exact List.mem_cons_of_mem _ (List.mem_cons_of_mem _ (List.mem_cons_of_mem _
      (List.mem_cons_of_mem _ member)))

theorem issued_matches (certified : Issued py rsa issued weights) :
    issued.Matches issued.manifest := by
  obtain ⟨keys, members⟩ := issued_manifest certified
  intro item member
  exact Dict.get?_of_mem (keys ▸ manifestKeys_nodup issued) (members item member)

/-- Two lists of items under the same keys that one dictionary has are the same. -/
theorem items_of_keys {d a b : Dict Value} (keys : a.map Prod.fst = b.map Prod.fst)
    (inA : ∀ item ∈ a, Dict.get? item.1 d = some item.2)
    (inB : ∀ item ∈ b, Dict.get? item.1 d = some item.2) : a = b := by
  induction a generalizing b with
  | nil => exact (List.map_eq_nil_iff.mp keys.symm).symm
  | cons x rest ih =>
    cases b with
    | nil => cases keys
    | cons y others =>
      obtain ⟨key, keys⟩ := List.cons.inj keys
      have valueA := inA x List.mem_cons_self
      have valueB := inB y List.mem_cons_self
      rw [key, valueB] at valueA
      rw [ih keys (fun item member => inA item (List.mem_cons_of_mem _ member))
        (fun item member => inB item (List.mem_cons_of_mem _ member)),
        Prod.ext key (Option.some.inj valueA).symm]

theorem keys_of_matches (keys : issued.manifest.map Prod.fst = issued.manifestKeys)
    (fields : c.Matches issued.manifest) : ∀ item ∈ c.recorded, item.1 ∈ issued.manifestKeys := by
  intro item member
  rw [← keys]
  exact List.mem_map_of_mem (Dict.mem_of_get? (fields item member))

/-- An issued manifest determines the fields that match it, and the kind with them. -/
theorem recorded_of_matches (certified : Issued py rsa issued weights)
    (fields : c.Matches issued.manifest) : c.recorded = issued.recorded := by
  have shared := keys_of_matches (issued_manifest certified).1 fields
  have own := issued_matches certified
  cases issued with
  | unlearning i =>
    cases c with
    | unlearning c => exact items_of_keys rfl fields own
    | erasure c =>
      have foreign := shared _ List.mem_cons_self
      simp [Certificate.manifestKeys] at foreign
  | erasure i =>
    cases c with
    | unlearning c =>
      have foreign := shared _ List.mem_cons_self
      simp [Certificate.manifestKeys] at foreign
    | erasure c => exact items_of_keys rfl fields own

theorem issued_provenance (certified : Issued py rsa issued weights) :
    issued.modelSha256After = sha256Hex rsa weights ∧ ∃ trainerId hsm keyLabel now p,
      signModel py rsa weights trainerId issued.manifest hsm keyLabel now = .ok p ∧
        issued.provenance = some p := by
  cases certified with
  | unlearning made =>
    obtain ⟨p, signed, made⟩ := bind_eq_ok made
    cases made
    exact ⟨rfl, _, _, _, _, p, signed, rfl⟩
  | erasure made =>
    obtain ⟨p, signed, made⟩ := bind_eq_ok made
    cases made
    exact ⟨rfl, _, _, _, _, p, signed, rfl⟩

theorem signModel_digest {trainerId keyLabel now : String} {manifest : Dict Value}
    {hsm : Hsm rsa} {p : ModelProvenance}
    (signed : signModel py rsa weights trainerId manifest hsm keyLabel now = .ok p) :
    manifestDigest py rsa manifest = .ok p.manifestSha256 := by
  obtain ⟨manifestSha, digested, signed⟩ := bind_eq_ok signed
  cases signed
  exact digested

/-! Certificates altered after issue. -/

/-- What verification compares of an issued certificate, in an altered one. -/
structure CheckedValuesKept (issued c : Certificate) (p q : ModelProvenance) : Prop where
  hash : c.modelSha256After = issued.modelSha256After
  manifest : sortKeys (.dict c.manifest) = sortKeys (.dict issued.manifest)
  weights : q.weightsSha256 = p.weightsSha256
  digest : q.manifestSha256 = p.manifestSha256
  trainer : q.trainerId = p.trainerId

/-- The canonical texts of the manifests, as they are hashed. -/
def canonicalTexts (py : Interpreter) (manifests : List (Dict Value)) : Set Bytes :=
  {bytes | ∃ manifest ∈ manifests, ∃ text, dumps py compact (.dict manifest) = .ok text ∧
    bytes = utf8 text}

theorem digest_of_sortKeys {a b : Dict Value} (same : sortKeys (.dict a) = sortKeys (.dict b)) :
    manifestDigest py rsa a = manifestDigest py rsa b := by
  have digits : (Value.dict a).digitsOk = (Value.dict b).digitsOk := by
    rw [← digitsOk_sortKeys, same, digitsOk_sortKeys]
  unfold manifestDigest dumps
  rw [digits, same]

theorem sortKeys_of_digest {a b : Dict Value} {digest : String} (heldA : Held py (.dict a))
    (heldB : Held py (.dict b)) (free : Set.InjOn rsa.sha256 (canonicalTexts py [a, b]))
    (digestA : manifestDigest py rsa a = .ok digest)
    (digestB : manifestDigest py rsa b = .ok digest) :
    sortKeys (.dict a) = sortKeys (.dict b) := by
  obtain ⟨textA, dumpedA, digestA⟩ := bind_eq_ok digestA
  obtain ⟨textB, dumpedB, digestB⟩ := bind_eq_ok digestB
  have hashes := hex_injective (Except.ok.inj (digestA.trans digestB.symm))
  have memberA : utf8 textA ∈ canonicalTexts py [a, b] :=
    ⟨a, List.mem_cons_self, textA, dumpedA, rfl⟩
  have memberB : utf8 textB ∈ canonicalTexts py [a, b] :=
    ⟨b, List.mem_cons_of_mem _ List.mem_cons_self, textB, dumpedB, rfl⟩
  have texts := utf8_injective (free memberA memberB hashes)
  have digitsOf : ∀ {d : Dict Value} {text : String}, dumps py compact (.dict d) = .ok text →
      (Value.dict d).digitsOk = true := by
    intro d text dumped
    unfold dumps at dumped
    split at dumped
    · assumption
    · cases dumped
  exact dumps_injective py compact_plain (heldA (digitsOf dumpedA)) (heldB (digitsOf dumpedB))
    (by rw [dumpedA, dumpedB, texts])

variable {p q : ModelProvenance}

theorem accepted_of_kept (secure : rsa.Secure) (certified : Issued py rsa issued weights)
    (carried : issued.provenance = some p) (carried' : c.provenance = some q)
    (signatures : fromHex q.signatureHex = fromHex p.signatureHex)
    (keys : fromHex q.publicKeyDerHex = fromHex p.publicKeyDerHex)
    (kept : CheckedValuesKept issued c p q) : c.verify py rsa weights none = .ok true := by
  obtain ⟨hash, trainerId, hsm, keyLabel, now, p', signed, same⟩ := issued_provenance certified
  rw [carried] at same
  cases same
  have payloads : q.payload = p.payload := by
    rw [ModelProvenance.payload, kept.weights, kept.digest, kept.trainer, ModelProvenance.payload]
  rw [verify_true_iff]
  refine ⟨hash.symm.trans kept.hash.symm, q, carried', ?_,
    accepted_of_payload (signModel_accepted secure signed) kept.weights signatures keys payloads⟩
  rw [digest_of_sortKeys kept.manifest, signModel_digest signed, kept.digest]

theorem kept_of_accepted {weights' : Bytes} {trusted : Option Bytes} (secure : rsa.Secure)
    (certified : Issued py rsa issued weights) (carried : issued.provenance = some p)
    (carried' : c.provenance = some q)
    (signatures : fromHex q.signatureHex = fromHex p.signatureHex)
    (keys : fromHex q.publicKeyDerHex = fromHex p.publicKeyDerHex)
    (held : Held py (.dict issued.manifest)) (held' : Held py (.dict c.manifest))
    (free : Set.InjOn rsa.sha256 (canonicalTexts py [c.manifest, issued.manifest]))
    (accepted : c.verify py rsa weights' trusted = .ok true) : CheckedValuesKept issued c p q := by
  obtain ⟨hash, trainerId, hsm, keyLabel, now, p', signed, same⟩ := issued_provenance certified
  rw [carried] at same
  cases same
  obtain ⟨hash', q', carriedQ, digested', accepted'⟩ :=
    (verify_true_iff py rsa c weights' trusted).mp accepted
  rw [carried'] at carriedQ
  cases carriedQ
  have original := signModel_accepted secure signed
  have matching := ((verifyModel_true_iff rsa weights p none).mp original).1
  have matching' := ((verifyModel_true_iff rsa weights' q trusted).mp accepted').1
  obtain ⟨hashes, tails⟩ := (payload_eq_iff matching matching').mp
    (payload_of_accepted secure.binding original accepted' signatures keys)
  -- both digests are hexadecimal, so the texts part at the first bar
  obtain ⟨text, _, digestText⟩ := bind_eq_ok digested'
  have clean' : '|' ∉ q.manifestSha256.toList := Except.ok.inj digestText ▸ hex_no_bar _
  obtain ⟨digests, trainers⟩ := first_ends (signModel_fields signed).1 clean' tails
  have manifestSha := String.toList_inj.mp digests
  have digested := signModel_digest signed
  rw [← manifestSha] at digested
  exact {
    hash := by rw [← hash', hash, sha256Hex, hashes, sha256Hex]
    manifest := sortKeys_of_digest held' held free digested' digested
    weights := by rw [← matching', ← matching, sha256Hex, hashes, sha256Hex]
    digest := manifestSha
    trainer := String.toList_inj.mp trainers }

/-- A certificate is bound to its manifest exactly if a value that verification compares
    is off, or its fields are as the manifest has them. One that was altered after issue,
    under the same signature and key, is bound to the manifest that was signed exactly if
    the alteration touches a compared value, or no recorded field. -/
theorem fields_bound_iff (py : Interpreter) (rsa : RsaPss) (secure : rsa.Secure) :
    (∀ c : Certificate, BoundTo py rsa c c.manifest ↔
        (¬ ∃ p, Consistent py rsa c p) ∨ c.Matches c.manifest) ∧
      ∀ (issued c : Certificate) (weights : Bytes) (p q : ModelProvenance),
        Issued py rsa issued weights → issued.provenance = some p → c.provenance = some q →
        fromHex q.signatureHex = fromHex p.signatureHex →
        fromHex q.publicKeyDerHex = fromHex p.publicKeyDerHex →
        Held py (.dict issued.manifest) → Held py (.dict c.manifest) →
        Set.InjOn rsa.sha256 (canonicalTexts py [c.manifest, issued.manifest]) →
        (BoundTo py rsa c issued.manifest ↔
          ¬ CheckedValuesKept issued c p q ∨ c.recorded = issued.recorded) := by
  constructor
  · intro c
    rw [boundTo_iff, imp_iff_not_or]
  · intro issued c weights p q certified carried carried' signatures keys held held' free
    constructor
    · intro bound
      by_cases kept : CheckedValuesKept issued c p q
      · right
        apply recorded_of_matches certified
        exact bound weights none
          (accepted_of_kept secure certified carried carried' signatures keys kept)
      · exact Or.inl kept
    · rintro (altered | fields) weights' trusted accepted
      · exact absurd (kept_of_accepted secure certified carried carried' signatures keys held held'
          free accepted) altered
      · rw [Certificate.Matches, fields]
        exact issued_matches certified

end

/-! A subject and a client, erased and unlearned from a model. -/

def sampleSigner : Signer plainRsa := ⟨emptyHsm, "horizon-erasure-service", "erasure-signer"⟩

def sampleClock : Clock := ⟨"2026-01-01T00:00:00+00:00", "2026-01-01T00:00:01+00:00"⟩

def sampleErasureManifest : Dict Value :=
  erasureManifest plainRsa [1] [] (.fin 0) 1 "subject-a" "client-1" "fedavg"
    sampleClock.certificate

def sampleUnlearningManifest : Dict Value :=
  unlearningManifest plainRsa [1] [] (.fin 0) ["client-1"] "fedavg" "efficient_unlearn" none
    sampleClock.certificate

theorem sampleErasureManifest_readable :
    Readable Evidence.sampleInterpreter (.dict sampleErasureManifest) := by
  have one : intDigitsOk 1 = true := intDigitsOk_of_small (by decide)
  simp [sampleErasureManifest, erasureManifest, Readable, ReadableItems, NumReadable, one,
    Evidence.sample_floatReadable]

theorem sampleUnlearningManifest_readable :
    Readable Evidence.sampleInterpreter (.dict sampleUnlearningManifest) := by
  simp [sampleUnlearningManifest, unlearningManifest, idList, sortedIds, orNull, Readable,
    ReadableItems, ReadableList, NumReadable, Evidence.sample_floatReadable]

theorem sample_record {manifest : Dict Value}
    (readable : Readable Evidence.sampleInterpreter (.dict manifest)) : ∃ p,
    signModel Evidence.sampleInterpreter plainRsa [] sampleSigner.trainerId manifest
      sampleSigner.hsm sampleSigner.keyLabel sampleClock.provenance = .ok p := by
  unfold signModel manifestDigest
  rw [dumps_readable _ _ readable]
  exact ⟨_, rfl⟩

theorem sampleErasure_issued : ∃ c p, Issued Evidence.sampleInterpreter plainRsa (.erasure c) [] ∧
    c.manifest = sampleErasureManifest ∧ c.subjectId = "subject-a" ∧ c.provenance = some p := by
  obtain ⟨p, signed⟩ := sample_record sampleErasureManifest_readable
  have made : ∃ c, certifyErasure Evidence.sampleInterpreter [1] [] (.fin 0) 1 "subject-a"
      "client-1" "fedavg" sampleSigner sampleClock = .ok c ∧ c.manifest = sampleErasureManifest ∧
      c.subjectId = "subject-a" ∧ c.provenance = some p := by
    unfold certifyErasure
    rw [← sampleErasureManifest]
    dsimp only
    rw [signed]
    exact ⟨_, rfl, rfl, rfl, rfl⟩
  obtain ⟨c, made, fields⟩ := made
  exact ⟨c, p, .erasure made, fields⟩

theorem sampleUnlearning_issued : ∃ c p,
    Issued Evidence.sampleInterpreter plainRsa (.unlearning c) [] ∧
      c.manifest = sampleUnlearningManifest ∧ c.removedClientIds = ["client-1"] ∧
      c.provenance = some p := by
  obtain ⟨p, signed⟩ := sample_record sampleUnlearningManifest_readable
  have made : ∃ c, certifyUnlearning Evidence.sampleInterpreter [1] [] (.fin 0) ["client-1"]
      "fedavg" "efficient_unlearn" none sampleSigner sampleClock = .ok c ∧
      c.manifest = sampleUnlearningManifest ∧ c.removedClientIds = ["client-1"] ∧
      c.provenance = some p := by
    unfold certifyUnlearning
    rw [← sampleUnlearningManifest]
    dsimp only
    rw [signed]
    exact ⟨_, rfl, rfl, rfl, rfl⟩
  obtain ⟨c, made, fields⟩ := made
  exact ⟨c, p, .unlearning made, fields⟩

theorem canonicalTexts_twice (py : Interpreter) (manifest : Dict Value) :
    (canonicalTexts py [manifest, manifest]).Subsingleton := by
  rintro _ ⟨a, memberA, textA, dumpedA, rfl⟩ _ ⟨b, memberB, textB, dumpedB, rfl⟩
  have sameA : a = manifest := by simpa using memberA
  have sameB : b = manifest := by simpa using memberB
  rw [sameA] at dumpedA
  rw [sameB, dumpedA] at dumpedB
  rw [Except.ok.inj dumpedB]

/-- The certificate as it was issued is bound to its manifest. -/
theorem fields_bound_sample : ∃ c p,
    Issued Evidence.sampleInterpreter plainRsa (.erasure c) [] ∧ c.provenance = some p ∧
      BoundTo Evidence.sampleInterpreter plainRsa (.erasure c) c.manifest := by
  obtain ⟨c, p, certified, manifest, _, carried⟩ := sampleErasure_issued
  have held : Held Evidence.sampleInterpreter (.dict c.manifest) := by
    rw [manifest]
    exact fun _ => sampleErasureManifest_readable
  have bound := (fields_bound_iff Evidence.sampleInterpreter plainRsa plainRsa_secure).2
    (.erasure c) (.erasure c) [] p p certified carried carried rfl rfl held held
    ((canonicalTexts_twice _ _).injOn _)
  exact ⟨c, p, certified, carried, bound.mpr (Or.inr rfl)⟩

/-- Another subject, another list of removed clients: verification answers True. -/
theorem altered_fields_accepted : plainRsa.Secure ∧
    (∃ c p, Issued Evidence.sampleInterpreter plainRsa (.erasure c) [] ∧
      c.provenance = some p ∧ c.subjectId = "subject-a" ∧
      ErasureCertificate.verify Evidence.sampleInterpreter plainRsa
        { c with subjectId := "subject-b" } [] none = .ok true ∧
      ¬ (Certificate.erasure { c with subjectId := "subject-b" }).Matches c.manifest) ∧
    ∃ c p, Issued Evidence.sampleInterpreter plainRsa (.unlearning c) [] ∧
      c.provenance = some p ∧ c.removedClientIds = ["client-1"] ∧
      UnlearningCertificate.verify Evidence.sampleInterpreter plainRsa
        { c with removedClientIds := [] } [] none = .ok true ∧
      ¬ (Certificate.unlearning { c with removedClientIds := [] }).Matches c.manifest := by
  refine ⟨plainRsa_secure, ?_, ?_⟩
  · obtain ⟨c, p, certified, _, subject, carried⟩ := sampleErasure_issued
    refine ⟨c, p, certified, carried, subject, ?_, ?_⟩
    · exact accepted_of_kept plainRsa_secure certified (p := p) (q := p)
        (c := .erasure { c with subjectId := "subject-b" }) carried carried rfl rfl
        ⟨rfl, rfl, rfl, rfl, rfl⟩
    · intro fields
      have same := recorded_of_matches certified fields
      simp [Certificate.recorded, subject] at same
  · obtain ⟨c, p, certified, _, removed, carried⟩ := sampleUnlearning_issued
    refine ⟨c, p, certified, carried, removed, ?_, ?_⟩
    · exact accepted_of_kept plainRsa_secure certified (p := p) (q := p)
        (c := .unlearning { c with removedClientIds := [] }) carried carried rfl rfl
        ⟨rfl, rfl, rfl, rfl, rfl⟩
    · intro fields
      have same := recorded_of_matches certified fields
      simp [Certificate.recorded, idList, removed] at same

end HorizonRic.Federated
