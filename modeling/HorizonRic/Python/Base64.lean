import HorizonRic.Python.Bytes

/-!
The standard base64 alphabet: `base64.b64encode`, and `base64.b64decode` as it works
without validation, where characters outside the alphabet are dropped.
-/
namespace Py

def base64Alphabet : List Char :=
  "ABCDEFGHIJKLMNOPQRSTUVWXYZabcdefghijklmnopqrstuvwxyz0123456789+/".toList

def base64Digit (n : Nat) : Char := base64Alphabet.getD n '='

/-- The six bits that a character stands for. -/
def base64Value (c : Char) : Option Nat :=
  if 'A' ≤ c ∧ c ≤ 'Z' then some (c.toNat - 65)
  else if 'a' ≤ c ∧ c ≤ 'z' then some (c.toNat - 71)
  else if '0' ≤ c ∧ c ≤ '9' then some (c.toNat + 4)
  else if c = '+' then some 62
  else if c = '/' then some 63
  else none

/-- The loop of `binascii.a2b_base64`: the place in the group of four, the bits left over
    from it, and the padding since the last data character. -/
def decodeQuads : Nat → Nat → Nat → List Char → Except PyErr Bytes
  | quad, _, _, [] => if quad = 0 then .ok [] else .error .valueError
  | quad, left, pads, c :: rest =>
    if c = '=' then
      if 2 ≤ quad ∧ 4 ≤ quad + (pads + 1) then .ok []
      else decodeQuads quad left (if 2 ≤ quad then pads + 1 else pads) rest
    else match base64Value c with
      | none => decodeQuads quad left pads rest
      | some bits =>
        match quad with
        | 0 => decodeQuads 1 bits 0 rest
        | 1 => do
          let more ← decodeQuads 2 (bits % 16) 0 rest
          .ok (UInt8.ofNat (4 * left + bits / 16) :: more)
        | 2 => do
          let more ← decodeQuads 3 (bits % 4) 0 rest
          .ok (UInt8.ofNat (16 * left + bits / 4) :: more)
        | _ => do
          let more ← decodeQuads 0 0 0 rest
          .ok (UInt8.ofNat (64 * left + bits) :: more)

/-- `base64.b64decode(text)`. -/
def b64decode (text : String) : Except PyErr Bytes :=
  if text.toList.all fun c => decide (c.toNat < 128) then decodeQuads 0 0 0 text.toList
  else .error .valueError

def encodeTriples : Bytes → List Char
  | [] => []
  | [a] => [base64Digit (a.toNat / 4), base64Digit (a.toNat % 4 * 16), '=', '=']
  | [a, b] =>
    [base64Digit (a.toNat / 4), base64Digit (a.toNat % 4 * 16 + b.toNat / 16),
      base64Digit (b.toNat % 16 * 4), '=']
  | a :: b :: c :: rest =>
    base64Digit (a.toNat / 4) :: base64Digit (a.toNat % 4 * 16 + b.toNat / 16) ::
      base64Digit (b.toNat % 16 * 4 + c.toNat / 64) :: base64Digit (c.toNat % 64) ::
        encodeTriples rest

/-- `base64.b64encode(data)`, decoded as ASCII. -/
def b64encode (data : Bytes) : String := String.ofList (encodeTriples data)

theorem base64Digit_spec : ∀ n < 64, base64Value (base64Digit n) = some n ∧
    base64Digit n ≠ '=' ∧ (base64Digit n).toNat < 128 := by decide +kernel

/-- One data character in the loop. -/
theorem decodeQuads_digit {n : Nat} (small : n < 64) (quad left pads : Nat) (rest : List Char) :
    decodeQuads quad left pads (base64Digit n :: rest) =
      match quad with
      | 0 => decodeQuads 1 n 0 rest
      | 1 => decodeQuads 2 (n % 16) 0 rest >>= fun more =>
          .ok (UInt8.ofNat (4 * left + n / 16) :: more)
      | 2 => decodeQuads 3 (n % 4) 0 rest >>= fun more =>
          .ok (UInt8.ofNat (16 * left + n / 4) :: more)
      | _ => decodeQuads 0 0 0 rest >>= fun more =>
          .ok (UInt8.ofNat (64 * left + n) :: more) := by
  obtain ⟨value, notPad, _⟩ := base64Digit_spec n small
  rw [decodeQuads.eq_def]
  simp only [notPad, if_false, value]

theorem decodeQuads_encodeTriples (data : Bytes) :
    decodeQuads 0 0 0 (encodeTriples data) = .ok data := by
  induction data using encodeTriples.induct with
  | case1 => rfl
  | case2 a =>
    have bound : a.toNat < 256 := a.toNat_lt
    have whole : 4 * (a.toNat / 4) + a.toNat % 4 * 16 / 16 = a.toNat := by omega
    rw [encodeTriples, decodeQuads_digit (by omega)]
    simp only
    rw [decodeQuads_digit (by omega)]
    simp only [whole, UInt8.ofNat_toNat]
    rfl
  | case3 a b =>
    have boundA : a.toNat < 256 := a.toNat_lt
    have boundB : b.toNat < 256 := b.toNat_lt
    have first : 4 * (a.toNat / 4) + (a.toNat % 4 * 16 + b.toNat / 16) / 16 = a.toNat := by omega
    have second : 16 * ((a.toNat % 4 * 16 + b.toNat / 16) % 16) + b.toNat % 16 * 4 / 4 =
        b.toNat := by omega
    rw [encodeTriples, decodeQuads_digit (by omega)]
    simp only
    rw [decodeQuads_digit (by omega)]
    simp only
    rw [decodeQuads_digit (by omega)]
    simp only [first, second, UInt8.ofNat_toNat]
    rfl
  | case4 a b c rest ih =>
    have boundA : a.toNat < 256 := a.toNat_lt
    have boundB : b.toNat < 256 := b.toNat_lt
    have boundC : c.toNat < 256 := c.toNat_lt
    have first : 4 * (a.toNat / 4) + (a.toNat % 4 * 16 + b.toNat / 16) / 16 = a.toNat := by omega
    have second : 16 * ((a.toNat % 4 * 16 + b.toNat / 16) % 16) +
        (b.toNat % 16 * 4 + c.toNat / 64) / 4 = b.toNat := by omega
    have third : 64 * ((b.toNat % 16 * 4 + c.toNat / 64) % 4) + c.toNat % 64 = c.toNat := by omega
    rw [encodeTriples, decodeQuads_digit (by omega)]
    simp only
    rw [decodeQuads_digit (by omega)]
    simp only
    rw [decodeQuads_digit (by omega)]
    simp only
    rw [decodeQuads_digit (by omega)]
    simp only [ih, first, second, third, UInt8.ofNat_toNat]
    rfl

theorem encodeTriples_ascii (data : Bytes) : ∀ c ∈ encodeTriples data, c.toNat < 128 := by
  have ascii : ∀ n < 64, (base64Digit n).toNat < 128 := fun n small =>
    (base64Digit_spec n small).2.2
  induction data using encodeTriples.induct with
  | case1 => simp [encodeTriples]
  | case2 a =>
    have bound : a.toNat < 256 := a.toNat_lt
    have first := ascii (a.toNat / 4) (by omega)
    have second := ascii (a.toNat % 4 * 16) (by omega)
    simp [encodeTriples, first, second]
  | case3 a b =>
    have boundA : a.toNat < 256 := a.toNat_lt
    have boundB : b.toNat < 256 := b.toNat_lt
    have first := ascii (a.toNat / 4) (by omega)
    have second := ascii (a.toNat % 4 * 16 + b.toNat / 16) (by omega)
    have third := ascii (b.toNat % 16 * 4) (by omega)
    simp [encodeTriples, first, second, third]
  | case4 a b c rest ih =>
    have boundA : a.toNat < 256 := a.toNat_lt
    have boundB : b.toNat < 256 := b.toNat_lt
    have boundC : c.toNat < 256 := c.toNat_lt
    have first := ascii (a.toNat / 4) (by omega)
    have second := ascii (a.toNat % 4 * 16 + b.toNat / 16) (by omega)
    have third := ascii (b.toNat % 16 * 4 + c.toNat / 64) (by omega)
    have fourth := ascii (c.toNat % 64) (by omega)
    simp only [encodeTriples, List.mem_cons, forall_eq_or_imp]
    exact ⟨first, second, third, fourth, ih⟩

theorem b64decode_b64encode (data : Bytes) : b64decode (b64encode data) = .ok data := by
  have ascii : (encodeTriples data).all (fun c => decide (c.toNat < 128)) = true := by
    rw [List.all_eq_true]
    exact fun c member => decide_eq_true (encodeTriples_ascii data c member)
  rw [b64decode, b64encode, String.toList_ofList, ascii, if_pos rfl, decodeQuads_encodeTriples]

end Py
