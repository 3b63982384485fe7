import HorizonRic.Evidence.Rfc3161
import HorizonRic.Shield.Soundness

/-!
What the walk over anchored chains establishes. It accepts anchors whose token decodes and
names the head, signed or not, and an anchor that makes a conversion raise ends the walk
with that exception.
-/
namespace HorizonRic.Rfc3161

open Py

/-- The token of the record, decoded, names the head that the record names. -/
structure TokenOf (client : TimestampClient) (rec : Dict Value)
    (resp : TimestampResponse client.TstInfo) (info : client.TstInfo) : Prop where
  token : ∃ text body, rec.getD "token_b64" .null = .str text ∧ b64decode text = .ok body ∧
    client.decodeTimestampResponse body = .ok resp
  parsed : resp.tstInfo = .ok info
  imprint : ∃ head, rec.getD "chain_head_hex" .null = .str head ∧
    fromHex head = .ok (client.messageImprint info)

/-- A timestamp authority signed the token over the head. -/
def SignedByAuthority (client : TimestampClient) (rec : Dict Value) : Prop :=
  ∃ resp info, TokenOf client rec resp info ∧
    ∃ key, client.isAuthority key ∧ client.authorities.verify key resp.signature info = true

/-- Present, granted, and for the head that was looked up. -/
structure Consistent (client : TimestampClient) (rec : Dict Value) (expected : Option String) :
    Prop where
  decodes : ∃ resp info, TokenOf client rec resp info ∧ resp.status = 0
  present : (rec.getD "token_b64" .null).truthy = true ∧
    (rec.getD "chain_head_hex" .null).truthy = true
  looked : ∀ head ∈ expected, (rec.getD "chain_head_hex" .null).eqStr head = true

/-- The authority's name can be written into a message. -/
def Printable (rec : Dict Value) : Prop := (rec.getD "tsa" (.str "<unknown>")).digitsOk = true

/-- A check of `verify_anchor` fails, and everything before it can be computed. -/
inductive RefusedByCheck (client : TimestampClient) (rec : Dict Value) (expected : Option String) :
    Prop
  | missing (absent : ¬ ((rec.getD "token_b64" .null).truthy = true ∧
      (rec.getD "chain_head_hex" .null).truthy = true))
  | status {body resp} (present : (rec.getD "token_b64" .null).truthy = true ∧
        (rec.getD "chain_head_hex" .null).truthy = true)
      (token : decodeToken (rec.getD "token_b64" .null) = .ok body)
      (decoded : client.decodeTimestampResponse body = .ok resp) (refused : resp.status ≠ 0)
      (printable : Printable rec)
  | head {body resp info chainHead} (present : (rec.getD "token_b64" .null).truthy = true ∧
        (rec.getD "chain_head_hex" .null).truthy = true)
      (token : decodeToken (rec.getD "token_b64" .null) = .ok body)
      (decoded : client.decodeTimestampResponse body = .ok resp) (granted : resp.status = 0)
      (parsed : resp.tstInfo = .ok info)
      (recorded : headBytes (rec.getD "chain_head_hex" .null) = .ok chainHead)
      (other : client.messageImprint info ≠ chainHead ∨
        ∃ head ∈ expected, (rec.getD "chain_head_hex" .null).eqStr head = false)
      (printable : Printable rec)

section
variable {py : Interpreter} {client : TimestampClient} {rec : Dict Value}
  {expected : Option String}

theorem raisedBy_bind_ok {x : Except PyErr α} {f : α → Except AnchorError β} {b : β}
    (h : (raisedBy x >>= f) = .ok b) : ∃ a, x = .ok a ∧ f a = .ok b := by
  cases x with
  | ok a => exact ⟨a, rfl, h⟩
  | error e => cases h

theorem raisedBy_bind_timestamp {x : Except PyErr α} {f : α → Except AnchorError β}
    {message : String} (h : (raisedBy x >>= f) = .error (.timestamp message)) :
    ∃ a, x = .ok a ∧ f a = .error (.timestamp message) := by
  cases x with
  | ok a => exact ⟨a, rfl, h⟩
  | error e => cases h

theorem refuse_not_ok (tsa : Value) (message : String → String) (b : Bool) :
    refuse py tsa message ≠ .ok b := by
  intro accepted
  obtain ⟨text, _, accepted⟩ := raisedBy_bind_ok accepted
  cases accepted

theorem refuse_timestamp_iff (tsa : Value) (message : String → String) :
    (∃ text, refuse py tsa message = .error (.timestamp text)) ↔ tsa.digitsOk = true := by
  rw [← toStr_isOk_iff py]
  constructor
  · rintro ⟨text, refused⟩
    obtain ⟨printed, given, _⟩ := raisedBy_bind_timestamp refused
    exact ⟨printed, given⟩
  · rintro ⟨printed, given⟩
    refine ⟨message printed, ?_⟩
    rw [refuse, given]
    rfl

theorem decodeToken_ok {v : Value} {body : Bytes} :
    decodeToken v = .ok body ↔ ∃ text, v = .str text ∧ b64decode text = .ok body := by
  cases v <;> simp [decodeToken]

theorem headBytes_ok {v : Value} {bytes : Bytes} :
    headBytes v = .ok bytes ↔ ∃ text, v = .str text ∧ fromHex text = .ok bytes := by
  cases v <;> simp [headBytes]

theorem present_iff : (!(anchorFields rec).tokenB64.truthy ||
    !(anchorFields rec).chainHeadHex.truthy) = true ↔
      ¬ ((rec.getD "token_b64" .null).truthy = true ∧
        (rec.getD "chain_head_hex" .null).truthy = true) := by
  rw [Bool.or_eq_true, Bool.not_eq_true', Bool.not_eq_true', not_and_or, Bool.not_eq_true,
    Bool.not_eq_true, anchorFields]

variable (py) in
theorem verifyAnchor_ok_iff :
    (∃ b, verifyAnchor py client rec expected = .ok b) ↔ Consistent client rec expected := by
  constructor
  · rintro ⟨b, accepted⟩
    unfold verifyAnchor verifyFields at accepted
    split at accepted
    · cases accepted
    · rename_i present
      rw [present_iff, not_not] at present
      obtain ⟨body, token, accepted⟩ := raisedBy_bind_ok accepted
      obtain ⟨resp, decoded, accepted⟩ := raisedBy_bind_ok accepted
      obtain ⟨text, isText, token⟩ := decodeToken_ok.mp token
      split at accepted
      · exact absurd accepted (refuse_not_ok _ _ _)
      · rename_i granted
        obtain ⟨info, parsed, accepted⟩ := raisedBy_bind_ok accepted
        obtain ⟨chainHead, recorded, accepted⟩ := raisedBy_bind_ok accepted
        obtain ⟨head, isHead, recorded⟩ := headBytes_ok.mp recorded
        split at accepted
        · exact absurd accepted (refuse_not_ok _ _ _)
        · rename_i imprint
          rw [not_not] at granted imprint
          have tokenOf : TokenOf client rec resp info :=
            ⟨⟨text, body, isText, token, decoded⟩, parsed, ⟨head, isHead, imprint ▸ recorded⟩⟩
          refine ⟨⟨resp, info, tokenOf, granted⟩, present, ?_⟩
          intro looked given
          cases given
          by_contra other
          simp only [anchorFields, other, if_false] at accepted
          obtain ⟨shown, _, accepted⟩ := raisedBy_bind_ok accepted
          exact refuse_not_ok _ _ _ accepted
  · rintro ⟨⟨resp, info, ⟨⟨text, body, isText, token, decoded⟩, parsed, head, isHead, recorded⟩,
      granted⟩, present, looked⟩
    refine ⟨true, ?_⟩
    unfold verifyAnchor verifyFields
    rw [if_neg (present_iff.not.mpr (not_not.mpr present))]
    have tokenBytes : decodeToken (anchorFields rec).tokenB64 = .ok body :=
      decodeToken_ok.mpr ⟨text, isText, token⟩
    have headOk : headBytes (anchorFields rec).chainHeadHex = .ok (client.messageImprint info) :=
      headBytes_ok.mpr ⟨head, isHead, recorded⟩
    simp only [tokenBytes, decoded, granted, parsed, headOk, raisedBy, bind, Except.bind, ne_eq,
      not_true_eq_false, if_false]
    cases expected with
    | none => rfl
    | some given => exact if_pos (looked given rfl)

/-- Which check refused the anchor. -/
theorem refusedByCheck_of_refused {message : String}
    (refused : verifyAnchor py client rec expected = .error (.timestamp message)) :
    RefusedByCheck client rec expected := by
  unfold verifyAnchor verifyFields at refused
  split at refused
  · rename_i absent
    exact .missing (present_iff.mp absent)
  · rename_i present
    rw [present_iff, not_not] at present
    obtain ⟨body, token, refused⟩ := raisedBy_bind_timestamp refused
    obtain ⟨resp, decoded, refused⟩ := raisedBy_bind_timestamp refused
    split at refused
    · rename_i rejected
      exact .status present token decoded rejected
        ((refuse_timestamp_iff _ _).mp ⟨message, refused⟩)
    · rename_i granted
      rw [not_not] at granted
      obtain ⟨info, parsed, refused⟩ := raisedBy_bind_timestamp refused
      obtain ⟨chainHead, recorded, refused⟩ := raisedBy_bind_timestamp refused
      split at refused
      · rename_i imprint
        exact .head present token decoded granted parsed recorded (Or.inl imprint)
          ((refuse_timestamp_iff _ _).mp ⟨message, refused⟩)
      · cases expected with
        | none => cases refused
        | some given =>
          dsimp only at refused
          split at refused
          · cases refused
          · rename_i other
            obtain ⟨shown, _, refused⟩ := raisedBy_bind_timestamp refused
            exact .head present token decoded granted parsed recorded
              (Or.inr ⟨given, rfl, Bool.eq_false_of_not_eq_true other⟩)
              ((refuse_timestamp_iff _ _).mp ⟨message, refused⟩)

variable (py) in
/-- An anchor that a check refuses is refused with a message. -/
theorem refused_of_check (check : RefusedByCheck client rec expected) :
    ∃ message, verifyAnchor py client rec expected = .error (.timestamp message) := by
  unfold verifyAnchor verifyFields
  cases check with
  | missing absent => exact ⟨_, if_pos (present_iff.mpr absent)⟩
  | status present token decoded rejected printable =>
    have tokenBytes : decodeToken (anchorFields rec).tokenB64 = .ok _ := token
    rw [if_neg (present_iff.not.mpr (not_not.mpr present))]
    simp only [tokenBytes, decoded, raisedBy, bind, Except.bind, ne_eq, rejected,
      not_false_eq_true, if_true]
    exact (refuse_timestamp_iff _ _).mpr printable
  | @head body resp info chainHead present token decoded granted parsed recorded other
      printable =>
    have tokenBytes : decodeToken (anchorFields rec).tokenB64 = .ok _ := token
    have headOk : headBytes (anchorFields rec).chainHeadHex = .ok _ := recorded
    rw [if_neg (present_iff.not.mpr (not_not.mpr present))]
    simp only [tokenBytes, decoded, granted, parsed, headOk, raisedBy, bind, Except.bind, ne_eq,
      not_true_eq_false, if_false]
    by_cases imprint : client.messageImprint info = chainHead
    · obtain ⟨given, isGiven, differs⟩ := other.resolve_left (not_not.mpr imprint)
      cases isGiven
      obtain ⟨text, isText, _⟩ := headBytes_ok.mp recorded
      have shown : (anchorFields rec).chainHeadHex.toStr py = .ok text := by
        rw [anchorFields, isText]
        rfl
      have notEqual : (anchorFields rec).chainHeadHex.eqStr given = false := differs
      simp only [imprint, not_true_eq_false, if_false, notEqual, Bool.false_eq_true, shown]
      exact (refuse_timestamp_iff _ _).mpr printable
    · simp only [imprint, not_false_eq_true, if_true]
      exact (refuse_timestamp_iff _ _).mpr printable

variable (py) in
theorem verifyAnchor_refused_iff :
    (∃ message, verifyAnchor py client rec expected = .error (.timestamp message)) ↔
      RefusedByCheck client rec expected := by
  constructor
  · rintro ⟨message, refused⟩
    exact refusedByCheck_of_refused refused
  · exact refused_of_check py

end

/-! The walk. -/

section
variable (py : Interpreter) (client : TimestampClient)
  (chainHeadLookup : ℕ → Except PyErr (Option String))

/-- The head is known and the record is consistent with it. -/
def SoundAt (index : ℕ) (rec : Dict Value) : Prop :=
  ∃ expected, chainHeadLookup index = .ok expected ∧ Consistent client rec expected

/-- The head is known, and a check of `verify_anchor` fails. -/
def RefusedAt (index : ℕ) (rec : Dict Value) : Prop :=
  ∃ expected, chainHeadLookup index = .ok expected ∧ RefusedByCheck client rec expected

def AnchorAt (chain : List (Dict Value)) (index : ℕ) (rec : Dict Value) : Prop :=
  chain[index]? = some rec ∧ isAnchor rec = true

/-- The first anchor that is malformed, where the chain starts at `start`. -/
structure FirstMalformed (start : ℕ) (chain : List (Dict Value)) (index : ℕ)
    (rec : Dict Value) : Prop where
  anchor : AnchorAt chain index rec
  malformed : ¬ SoundAt client chainHeadLookup (start + index) rec
  before : ∀ j r, j < index → AnchorAt chain j r → SoundAt client chainHeadLookup (start + j) r

variable {py client chainHeadLookup} {start index : ℕ} {rec : Dict Value}
  {chain : List (Dict Value)}

theorem judgeAnchor_true_iff :
    judgeAnchor py client chainHeadLookup index rec = .ok true ↔
      SoundAt client chainHeadLookup index rec := by
  unfold judgeAnchor SoundAt
  cases chainHeadLookup index with
  | error cause => simp
  | ok expected =>
    simp only [Except.ok.injEq, exists_eq_left', ← verifyAnchor_ok_iff py]
    cases verified : verifyAnchor py client rec expected with
    | ok b => simp
    | error e => cases e <;> simp

theorem judgeAnchor_false_iff :
    judgeAnchor py client chainHeadLookup index rec = .ok false ↔
      RefusedAt client chainHeadLookup index rec := by
  unfold judgeAnchor RefusedAt
  cases chainHeadLookup index with
  | error cause => simp
  | ok expected =>
    simp only [Except.ok.injEq, exists_eq_left', ← verifyAnchor_refused_iff py]
    cases verified : verifyAnchor py client rec expected with
    | ok b => simp
    | error e => cases e <;> simp

theorem anchorAt_succ (r : Dict Value) (j : ℕ) :
    AnchorAt (r :: chain) (j + 1) rec ↔ AnchorAt chain j rec := by
  rw [AnchorAt, AnchorAt, List.getElem?_cons_succ]

/-- A chain of sound anchors is walked to its end. -/
theorem verifyFrom_sound (sound : ∀ j r, AnchorAt chain j r →
    SoundAt client chainHeadLookup (start + j) r) :
    verifyFrom py client chainHeadLookup start chain = .ok (-1) := by
  induction chain generalizing start with
  | nil => rfl
  | cons r rest ih =>
    have later : verifyFrom py client chainHeadLookup (start + 1) rest = .ok (-1) := by
      apply ih
      intro j other anchor
      have shifted := sound (j + 1) other ((anchorAt_succ r j).mpr anchor)
      rwa [show start + 1 + j = start + (j + 1) by omega]
    rw [verifyFrom]
    split
    · rename_i anchor
      have here : SoundAt client chainHeadLookup start r := sound 0 r ⟨rfl, anchor⟩
      rw [judgeAnchor_true_iff.mpr here]
      exact later
    · exact later

variable (py) in
/-- The walk ends at the first malformed anchor, with what that anchor makes of it. -/
theorem verifyFrom_malformed (first : FirstMalformed client chainHeadLookup start chain index rec) :
    verifyFrom py client chainHeadLookup start chain =
      match judgeAnchor py client chainHeadLookup (start + index) rec with
      | .error e => .error e
      | .ok _ => .ok ↑(start + index) := by
  induction chain generalizing start index with
  | nil => cases first.anchor.1
  | cons r rest ih =>
    rw [verifyFrom]
    cases index with
    | zero =>
      have here : r = rec := Option.some.inj first.anchor.1
      rw [here, if_pos first.anchor.2, Nat.add_zero]
      cases judged : judgeAnchor py client chainHeadLookup start rec with
      | error e => rfl
      | ok accepted =>
        have refused : accepted = false := by
          by_contra accepts
          rw [Bool.not_eq_false] at accepts
          exact first.malformed (judgeAnchor_true_iff.mp (accepts ▸ judged))
        rw [refused]
        rfl
    | succ index =>
      have rest_first : FirstMalformed client chainHeadLookup (start + 1) rest index rec := by
        have shift : ∀ j, start + 1 + j = start + (j + 1) := by omega
        refine ⟨(anchorAt_succ r index).mp first.anchor, ?_, ?_⟩
        · rw [shift]
          exact first.malformed
        · intro j other less anchor
          rw [shift]
          exact first.before (j + 1) other (by omega) ((anchorAt_succ r j).mpr anchor)
      have later := ih rest_first
      rw [show start + 1 + index = start + (index + 1) by omega] at later
      split
      · rename_i anchor
        have here : SoundAt client chainHeadLookup start r :=
          first.before 0 r (by omega) ⟨rfl, anchor⟩
        rw [judgeAnchor_true_iff.mpr here]
        exact later
      · exact later

variable (client chainHeadLookup) in
/-- Either every anchor is sound, or one is the first that is not. -/
theorem sound_or_malformed (start : ℕ) (chain : List (Dict Value)) :
    (∀ j r, AnchorAt chain j r → SoundAt client chainHeadLookup (start + j) r) ∨
      ∃ index rec, FirstMalformed client chainHeadLookup start chain index rec := by
  classical
  by_cases bad : ∃ j r, AnchorAt chain j r ∧ ¬ SoundAt client chainHeadLookup (start + j) r
  · right
    obtain ⟨rec, anchor, malformed⟩ := Nat.find_spec bad
    refine ⟨Nat.find bad, rec, anchor, malformed, ?_⟩
    intro j r less here
    by_contra unsound
    exact Nat.find_min bad less ⟨r, here, unsound⟩
  · left
    intro j r anchor
    by_contra unsound
    exact bad ⟨j, r, anchor, unsound⟩

/-- There is one first malformed anchor. -/
theorem FirstMalformed.unique {other : ℕ} {r : Dict Value}
    (first : FirstMalformed client chainHeadLookup start chain index rec)
    (firstOther : FirstMalformed client chainHeadLookup start chain other r) : other = index := by
  rcases Nat.lt_trichotomy other index with less | same | more
  · exact absurd (first.before other r less firstOther.anchor) firstOther.malformed
  · exact same
  · exact absurd (firstOther.before index rec more first.anchor) first.malformed

end

/-- An accepted chain has every anchor signed over the head it names, and the first
    malformed anchor is answered with its index. -/
structure AnchorsVerified (py : Interpreter) (client : TimestampClient)
    (chainHeadLookup : ℕ → Except PyErr (Option String)) (chain : List (Dict Value)) : Prop where
  signed : verifyChainWithAnchors py client chainHeadLookup chain = .ok (-1) →
    ∀ index rec, AnchorAt chain index rec → SignedByAuthority client rec
  reported : ∀ index rec, FirstMalformed client chainHeadLookup 0 chain index rec →
    verifyChainWithAnchors py client chainHeadLookup chain = .ok index

theorem anchorsVerified_iff (py : Interpreter) (client : TimestampClient)
    (chainHeadLookup : ℕ → Except PyErr (Option String)) (chain : List (Dict Value)) :
    AnchorsVerified py client chainHeadLookup chain ↔
      (∀ index rec, AnchorAt chain index rec →
        SoundAt client chainHeadLookup index rec ∧ SignedByAuthority client rec) ∨
      ∃ index rec, FirstMalformed client chainHeadLookup 0 chain index rec ∧
        RefusedAt client chainHeadLookup index rec := by
  have walk : ∀ index rec, FirstMalformed client chainHeadLookup 0 chain index rec →
      verifyChainWithAnchors py client chainHeadLookup chain =
        match judgeAnchor py client chainHeadLookup index rec with
        | .error e => .error e
        | .ok _ => .ok ↑index := by
    intro index rec first
    have ends := verifyFrom_malformed py first
    rwa [Nat.zero_add] at ends
  have offset : ∀ index rec, SoundAt client chainHeadLookup (0 + index) rec ↔
      SoundAt client chainHeadLookup index rec := by
    intro index rec
    rw [Nat.zero_add]
  constructor
  · intro verified
    rcases sound_or_malformed client chainHeadLookup 0 chain with
      sound | ⟨index, rec, first⟩
    · left
      intro index rec anchor
      exact ⟨(offset index rec).mp (sound index rec anchor),
        verified.signed (verifyFrom_sound sound) index rec anchor⟩
    · right
      refine ⟨index, rec, first, ?_⟩
      have answered := verified.reported index rec first
      rw [walk index rec first] at answered
      cases judged : judgeAnchor py client chainHeadLookup index rec with
      | error e =>
        rw [judged] at answered
        cases answered
      | ok accepted =>
        cases accepted with
        | true =>
          have sound := judgeAnchor_true_iff.mp judged
          exact absurd ((offset index rec).mpr sound) first.malformed
        | false => exact judgeAnchor_false_iff.mp judged
  · rintro (genuine | ⟨index, rec, first, refused⟩)
    · constructor
      · intro _ index rec anchor
        exact (genuine index rec anchor).2
      · intro index rec first
        exact absurd ((offset index rec).mpr (genuine index rec first.anchor).1) first.malformed
    · have answered := walk index rec first
      rw [judgeAnchor_false_iff.mpr refused] at answered
      constructor
      · intro accepted
        rw [answered] at accepted
        have impossible : (index : Int) = -1 := Except.ok.inj accepted
        omega
      · intro other r firstOther
        have same : other = index := first.unique firstOther
        rw [same]
        exact answered

/-! A decoder that takes the imprint from the first 32 octets and the signature from the
rest, and an authority that signs by putting a one in front. -/

def plainAuthority : SignatureScheme Bytes Bytes where
  PrivateKey := Unit
  PublicKey := Unit
  publicKey _ := ()
  sign _ message := 1 :: message
  verify _ signature message := decide (signature = 1 :: message)

theorem plainAuthority_unforgeable : plainAuthority.Unforgeable where
  verifies key message := by simp [plainAuthority]
  onlySigned key message other accepted := by
    simpa [plainAuthority, eq_comm] using accepted

def plainClient : TimestampClient where
  TstInfo := Bytes
  messageImprint := id
  decodeTimestampResponse body := .ok ⟨0, .ok (body.take 32), body.drop 32⟩
  authorities := plainAuthority
  isAuthority _ := True

def anchorRecord (tokenB64 : String) : Dict Value :=
  [("type", .str "rfc3161_anchor"), ("tsa", .str "https://freetsa.org/tsr"),
    ("token_b64", .str tokenB64), ("chain_head_hex", .str Digest.zero.hex)]

/-- The imprint of the head, and no signature. -/
def forgedRecord : Dict Value := anchorRecord (b64encode Digest.zero.bytes)

def zeroLookup : ℕ → Except PyErr (Option String) := fun _ => .ok (some Digest.zero.hex)

theorem forged_token (resp : TimestampResponse Bytes) (info : Bytes) :
    TokenOf plainClient forgedRecord resp info ↔
      resp = ⟨0, .ok Digest.zero.bytes, []⟩ ∧ info = Digest.zero.bytes := by
  have decoded : plainClient.decodeTimestampResponse Digest.zero.bytes =
      .ok ⟨0, .ok Digest.zero.bytes, []⟩ := rfl
  constructor
  · rintro ⟨⟨text, body, isText, token, parsed⟩, tstInfo, _⟩
    have same : text = b64encode Digest.zero.bytes := (Value.str.inj isText).symm
    rw [same, b64decode_b64encode] at token
    cases token
    rw [decoded] at parsed
    cases parsed
    exact ⟨rfl, (Except.ok.inj tstInfo).symm⟩
  · rintro ⟨rfl, rfl⟩
    exact ⟨⟨_, _, rfl, b64decode_b64encode _, decoded⟩, rfl, ⟨_, rfl, fromHex_hex _⟩⟩

/-- An unsigned token is accepted, and bad base64 raises. -/
theorem unsigned_anchor_accepted : plainClient.authorities.Unforgeable ∧
    verifyChainWithAnchors plainInterpreter plainClient zeroLookup [forgedRecord] = .ok (-1) ∧
    ¬ SignedByAuthority plainClient forgedRecord ∧
    verifyChainWithAnchors plainInterpreter plainClient zeroLookup [anchorRecord "A"] =
      .error (.raised .valueError) := by
  refine ⟨plainAuthority_unforgeable, ?_, ?_, ?_⟩
  · apply verifyFrom_sound
    intro j r anchor
    have here : r = forgedRecord := by
      cases j with
      | zero => exact (Option.some.inj anchor.1).symm
      | succ j => cases anchor.1
    rw [here]
    refine ⟨some Digest.zero.hex, rfl, ⟨_, _, (forged_token _ _).mpr ⟨rfl, rfl⟩, rfl⟩,
      by decide, ?_⟩
    intro head given
    cases given
    decide
  · rintro ⟨resp, info, token, key, _, signed⟩
    obtain ⟨rfl, rfl⟩ := (forged_token resp info).mp token
    have equal : ([] : Bytes) = 1 :: Digest.zero.bytes := of_decide_eq_true signed
    cases equal
  · rfl

end HorizonRic.Rfc3161
