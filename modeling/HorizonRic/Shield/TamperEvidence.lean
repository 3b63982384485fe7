import HorizonRic.Shield.Signing
import HorizonRic.Shield.Soundness

/-!
Tamper evidence of signed certificates. The canonical text determines the JSON value of
every field but the two signature fields, so the signature of a certificate is refused
on one with any other field changed, if that one can be written at all.
-/
namespace HorizonRic

open Py Json

/-- Some field besides the signature fields has another JSON value, the order of keys
    inside it aside. -/
def Changed (a b : SafetyCertificate) : Prop :=
  ∃ key, key ∉ signatureFields ∧
    (Dict.get? key a.toDict).map sortKeys ≠ (Dict.get? key b.toDict).map sortKeys

/-- No integer in the certificate is too long to be written. -/
def SafetyCertificate.digitsOk (c : SafetyCertificate) : Bool :=
  (Value.dict (signedPayload c)).digitsOk

/-- An unforgeable scheme whose signatures are never empty. -/
structure Ed25519.Secure (ed : Ed25519) : Prop where
  unforgeable : ed.Unforgeable
  nonempty : ∀ key message, ed.sign key message ≠ []

section
variable (py : Interpreter)

/-- What Python can hold in a certificate: mappings with distinct keys, and floats whose
    text reads back. -/
def HeldCertificate (c : SafetyCertificate) : Prop := Held py (.dict (signedPayload c))

variable {py} {a b c : SafetyCertificate}

theorem payload_keys (c : SafetyCertificate) : ((signedPayload c).map Prod.fst).Nodup := by
  have keys : (c.toDict.map Prod.fst).Nodup := by
    simp [SafetyCertificate.toDict]
  exact keys.sublist (List.filter_sublist.map Prod.fst)

theorem get?_filter (d : Dict Value) (keep : String → Bool) {key : String}
    (kept : keep key = true) :
    Dict.get? key (d.filter fun item => keep item.1) = Dict.get? key d := by
  induction d with
  | nil => rfl
  | cons item rest ih =>
    obtain ⟨k, v⟩ := item
    rw [List.filter_cons]
    split
    · rw [Dict.get?_cons, Dict.get?_cons, ih]
    · rename_i dropped
      have other : k ≠ key := by
        rintro rfl
        exact dropped kept
      rw [Dict.get?_cons, if_neg other, ih]

theorem payload_get? (c : SafetyCertificate) {key : String} (signed : key ∉ signatureFields) :
    Dict.get? key (signedPayload c) = Dict.get? key c.toDict :=
  get?_filter c.toDict (fun key => decide (key ∉ signatureFields)) (decide_eq_true signed)

/-- Equal canonical texts, equal fields. -/
theorem unchanged_of_texts (heldA : HeldCertificate py a) (heldB : HeldCertificate py b)
    (digitsA : a.digitsOk = true) (digitsB : b.digitsOk = true)
    (texts : dumps py compact (.dict (signedPayload a)) =
      dumps py compact (.dict (signedPayload b))) : ¬ Changed a b := by
  have same := dumps_injective py compact_plain (heldA digitsA) (heldB digitsB) texts
  rw [sortKeys_dict, sortKeys_dict, Value.dict.injEq] at same
  rintro ⟨key, signed, differs⟩
  apply differs
  rw [← payload_get? a signed, ← payload_get? b signed, ← get?_sortItems (payload_keys a),
    ← get?_sortItems (payload_keys b), same]

variable (py) in
theorem canonical_cases (c : SafetyCertificate) :
    (c.digitsOk = true ∧ ∃ text, dumps py compact (.dict (signedPayload c)) = .ok text ∧
        canonicalCertificateBytes py c = .ok (utf8 text)) ∨
      (c.digitsOk = false ∧ canonicalCertificateBytes py c = .error .valueError) := by
  unfold canonicalCertificateBytes dumps
  rw [← SafetyCertificate.digitsOk]
  cases c.digitsOk with
  | true => exact Or.inl ⟨rfl, _, rfl, rfl⟩
  | false => exact Or.inr ⟨rfl, rfl⟩

variable {ed : Ed25519} {privateKey : ed.PrivateKey} {stamped tampered : SafetyCertificate}

/-- What a stamped certificate carries: the signature of its own canonical text. -/
theorem signed_cases (signed : signedCertificate py ed c privateKey = .ok stamped) :
    ∃ text, stamped.digitsOk = true ∧
      dumps py compact (.dict (signedPayload stamped)) = .ok text ∧
      signedPayload stamped = signedPayload c ∧
      stamped.signature = some (hexText (ed.sign privateKey (utf8 text))) := by
  obtain ⟨signature, written, signed⟩ := bind_eq_ok signed
  cases signed
  obtain ⟨bytes, canonical, written⟩ := bind_eq_ok written
  cases written
  rcases canonical_cases py c with ⟨digits, text, dumped, bytesOf⟩ | ⟨_, raised⟩
  · rw [bytesOf] at canonical
    cases canonical
    exact ⟨text, digits, dumped, rfl, rfl⟩
  · rw [raised] at canonical
    cases canonical

variable (py ed) in
/-- A certificate that can be written is stamped. -/
theorem signed_isOk (privateKey : ed.PrivateKey) (digits : c.digitsOk = true) :
    ∃ signature, signedCertificate py ed c privateKey = .ok { c with
      signature := some signature
      signingKeyFingerprint := some (keyFingerprint ed (ed.publicKey privateKey)) } := by
  rcases canonical_cases py c with ⟨_, text, _, bytesOf⟩ | ⟨tooLong, _⟩
  · refine ⟨hexText (ed.sign privateKey (utf8 text)), ?_⟩
    rw [signedCertificate, signCertificate, bytesOf]
    rfl
  · rw [digits] at tooLong
    cases tooLong

variable (py) in
/-- Verification of a certificate that carries a signature of some text. -/
theorem verify_signed (c : SafetyCertificate) (secure : ed.Secure) {text : String}
    (carries : c.signature = some (hexText (ed.sign privateKey (utf8 text)))) :
    (c.digitsOk = true → ∃ own, dumps py compact (.dict (signedPayload c)) = .ok own ∧
        verifyCertificate py ed c (ed.publicKey privateKey) = .ok (decide (own = text))) ∧
      (c.digitsOk = false →
        verifyCertificate py ed c (ed.publicKey privateKey) = .error .valueError) := by
  have nonempty := hexText_ne_empty (secure.nonempty privateKey (utf8 text))
  have entered : verifyCertificate py ed c (ed.publicKey privateKey) = (do
      let bytes ← canonicalCertificateBytes py c
      .ok (ed.verify (ed.publicKey privateKey) (ed.sign privateKey (utf8 text)) bytes)) := by
    simp only [verifyCertificate, carries, nonempty, if_false, fromHex_hexText]
  rw [entered]
  rcases canonical_cases py c with ⟨digits, own, dumped, bytesOf⟩ | ⟨digits, raised⟩
  · constructor
    · intro _
      refine ⟨own, dumped, ?_⟩
      rw [bytesOf, ok_bind, Except.ok.injEq, Bool.eq_iff_iff, decide_eq_true_eq,
        secure.unforgeable.verify_encoded_iff utf8 privateKey text own]
      exact ⟨utf8_injective, congrArg utf8⟩
    · intro tooLong
      rw [digits] at tooLong
      cases tooLong
  · constructor
    · intro fits
      rw [digits] at fits
      cases fits
    · intro _
      rw [raised]
      rfl

/-- A signed certificate verifies, and its signature is refused on a changed certificate,
    exactly if the changed one can be written. -/
theorem tampering_refused_iff (py : Interpreter) (ed : Ed25519) (secure : ed.Secure)
    (privateKey : ed.PrivateKey) (c stamped tampered : SafetyCertificate)
    (held : HeldCertificate py c) (heldTampered : HeldCertificate py tampered)
    (signed : signedCertificate py ed c privateKey = .ok stamped)
    (carries : tampered.signature = stamped.signature) (changed : Changed stamped tampered) :
    (verifyCertificate py ed stamped (ed.publicKey privateKey) = .ok true ∧
        verifyCertificate py ed tampered (ed.publicKey privateKey) = .ok false) ↔
      tampered.digitsOk = true := by
  obtain ⟨text, digits, dumped, payload, signature⟩ := signed_cases signed
  have heldStamped : HeldCertificate py stamped := by
    rw [HeldCertificate, payload]
    exact held
  obtain ⟨own, ownText, verified⟩ := (verify_signed py stamped secure signature).1 digits
  obtain ⟨refused, raised⟩ := verify_signed py tampered secure (carries.trans signature)
  constructor
  · rintro ⟨_, answers⟩
    by_contra tooLong
    rw [raised (Bool.eq_false_of_not_eq_true tooLong)] at answers
    cases answers
  · intro fits
    obtain ⟨other, otherText, answers⟩ := refused fits
    constructor
    · rw [verified, decide_eq_true (Except.ok.inj (ownText.symm.trans dumped))]
    · rw [answers, decide_eq_false]
      intro same
      apply unchanged_of_texts heldStamped heldTampered digits fits ?_ changed
      rw [dumped, otherText, same]

end

/-! A scheme whose signature is the message behind a one. -/

def plainScheme : Ed25519 where
  PrivateKey := Unit
  PublicKey := Unit
  publicKey _ := ()
  sign _ message := 1 :: message
  verify _ signature message := decide (signature = 1 :: message)
  rawPublic _ := []
  sha256 _ := Digest.zero

theorem plainScheme_secure : plainScheme.Secure where
  unforgeable := by
    constructor
    · intro key message
      simp [plainScheme]
    · intro key message other accepted
      simpa [plainScheme, eq_comm] using accepted
  nonempty key message := List.cons_ne_nil _ _

/-- A certificate of one check, with the seed and provenance given. -/
def sampleCertificate (seed : Int) : SafetyCertificate where
  decisionId := "dec-1"
  issuedAt := "2026-01-01T00:00:00+00:00"
  loopTier := "non_rt"
  block := "policy_emit"
  actionProposed := [("frequency_hz", .int 3500000000)]
  actionSafe := [("frequency_hz", .int 3500000000)]
  invariants := [⟨"max_eirp", true, some .nan, "dB", ""⟩]
  corrections := []
  violatedIds := []
  projected := false
  fallbackUsed := false
  fallbackTo := .null
  safe := true
  emitBlocked := false
  rngSeed := some seed
  modelProvenance := none
  signature := none
  signingKeyFingerprint := none

theorem sample_digitsOk {seed : Int} (digits : (sampleCertificate seed).digitsOk = true) :
    intDigitsOk seed = true := by
  have items := (digitsOkItems_iff _).mp digits ("rng_seed", .int seed)
  exact items (by simp [signedPayload, SafetyCertificate.toDict, sampleCertificate, orNull,
    signatureFields])

theorem sample_readable_certificate {seed : Int} (digits : intDigitsOk seed = true) :
    Readable plainInterpreter (.dict (signedPayload (sampleCertificate seed))) := by
  have frequency : intDigitsOk 3500000000 = true := intDigitsOk_of_small (by decide)
  have fields : ∀ item ∈ (sampleCertificate seed).toDict, Readable plainInterpreter item.2 := by
    simp [SafetyCertificate.toDict, sampleCertificate, SafetyCertificate.minMarginDB, orNull,
      InvariantCheck.toDict, Readable, ReadableItems, ReadableList, NumReadable, digits, frequency]
  rw [readable_dict]
  exact ⟨payload_keys _, fun item member => fields item (List.mem_of_mem_filter member)⟩

theorem sample_held (seed : Int) : HeldCertificate plainInterpreter (sampleCertificate seed) :=
  fun digits => sample_readable_certificate (sample_digitsOk digits)

def reseed (c : SafetyCertificate) (seed : Int) : SafetyCertificate :=
  { c with rngSeed := some seed }

/-- The stamped certificate, and the same one with another seed. -/
theorem sample_stamped : ∃ stamped,
    signedCertificate plainInterpreter plainScheme (sampleCertificate 1) () = .ok stamped ∧
      ∀ seed ≠ 1, signedPayload (reseed stamped seed) = signedPayload (sampleCertificate seed) ∧
        Changed stamped (reseed stamped seed) := by
  have one : intDigitsOk 1 = true := intDigitsOk_of_small (by decide)
  have digits : (sampleCertificate 1).digitsOk = true :=
    readable_digitsOk plainInterpreter (sample_readable_certificate one)
  obtain ⟨signature, signed⟩ := signed_isOk plainInterpreter plainScheme () digits
  refine ⟨_, signed, fun seed other => ⟨rfl, "rng_seed", by decide, ?_⟩⟩
  intro same
  have seeds : some (Value.int 1) = some (.int seed) := same
  cases seeds
  exact other rfl

theorem tampering_refused_seed : ∃ stamped,
    signedCertificate plainInterpreter plainScheme (sampleCertificate 1) () = .ok stamped ∧
      verifyCertificate plainInterpreter plainScheme stamped () = .ok true ∧
      verifyCertificate plainInterpreter plainScheme (reseed stamped 2) () =
        .ok false := by
  obtain ⟨stamped, signed, reseeded⟩ := sample_stamped
  obtain ⟨payload, changed⟩ := reseeded 2 (by decide)
  have two : intDigitsOk 2 = true := intDigitsOk_of_small (by decide)
  have held : HeldCertificate plainInterpreter (reseed stamped 2) := by
    rw [HeldCertificate, payload]
    exact sample_held 2
  have digits : (reseed stamped 2).digitsOk = true := by
    rw [SafetyCertificate.digitsOk, payload]
    exact readable_digitsOk plainInterpreter (sample_readable_certificate two)
  exact ⟨stamped, signed, (tampering_refused_iff plainInterpreter plainScheme plainScheme_secure ()
    (sampleCertificate 1) stamped (reseed stamped 2) (sample_held 1) held signed rfl
    changed).mpr digits⟩

/-- A seed of too many digits makes the verification raise. -/
theorem oversized_seed_raises : ∃ stamped,
    signedCertificate plainInterpreter plainScheme (sampleCertificate 1) () = .ok stamped ∧
      HeldCertificate plainInterpreter (reseed stamped intStrLimit) ∧
      Changed stamped (reseed stamped intStrLimit) ∧
      verifyCertificate plainInterpreter plainScheme (reseed stamped intStrLimit)
        () = .error .valueError := by
  obtain ⟨stamped, signed, reseeded⟩ := sample_stamped
  have long : 1 < intStrLimit :=
    (lt_floatOverflow (by decide)).trans_le floatOverflow_le_intStrLimit
  have other : (intStrLimit : Int) ≠ 1 := by omega
  obtain ⟨payload, changed⟩ := reseeded intStrLimit other
  obtain ⟨text, _, _, _, signature⟩ := signed_cases signed
  have held : HeldCertificate plainInterpreter (reseed stamped intStrLimit) := by
    rw [HeldCertificate, payload]
    exact sample_held intStrLimit
  have tooLong : (reseed stamped intStrLimit).digitsOk =
      false := by
    rw [SafetyCertificate.digitsOk, payload, ← SafetyCertificate.digitsOk]
    by_contra fits
    have digits := sample_digitsOk (Bool.eq_true_of_not_eq_false fits)
    simp [intDigitsOk] at digits
  have raised := (verify_signed plainInterpreter (reseed stamped intStrLimit) plainScheme_secure
    signature).2 tooLong
  exact ⟨stamped, signed, held, changed, raised⟩

end HorizonRic
