import HorizonRic.Python.Number

/-!
Bytes as lists of octets: hexadecimal text, `bytes.fromhex`, UTF-8, and digests
of 32 bytes.
-/
namespace Py

abbrev Bytes := List UInt8

def hexDigits : List Char := "0123456789abcdef".toList

def hexDigit (n : Nat) : Char := hexDigits.getD n '0'

def hexValue (c : Char) : Option Nat :=
  if '0' ≤ c ∧ c ≤ '9' then some (c.toNat - 48)
  else if 'a' ≤ c ∧ c ≤ 'f' then some (c.toNat - 87)
  else if 'A' ≤ c ∧ c ≤ 'F' then some (c.toNat - 55)
  else none

theorem hexValue_hexDigit : ∀ n < 16, hexValue (hexDigit n) = some n := by decide

def hexByte (b : UInt8) : List Char := [hexDigit (b.toNat / 16), hexDigit (b.toNat % 16)]

def isAsciiSpace (c : Char) : Bool :=
  c == ' ' || c == '\t' || c == '\n' || c == '\r' || c == '\x0b' || c == '\x0c'

def fromHexChars : List Char → Option Bytes
  | [] => some []
  | [c] => if isAsciiSpace c then some [] else none
  | c :: d :: rest =>
    if isAsciiSpace c then fromHexChars (d :: rest)
    else do
      let high ← hexValue c
      let low ← hexValue d
      let more ← fromHexChars rest
      some (UInt8.ofNat (16 * high + low) :: more)

/-- `bytes.fromhex(text)`. -/
def fromHex (text : String) : Except PyErr Bytes :=
  match fromHexChars text.toList with
  | some bytes => .ok bytes
  | none => .error .valueError

def utf8 (text : String) : Bytes := text.toByteArray.data.toList

/-- A SHA-256 digest. -/
structure Digest where
  bytes : Bytes
  size : bytes.length = 32

namespace Digest

@[ext] theorem ext {a b : Digest} (h : a.bytes = b.bytes) : a = b := by
  cases a
  cases b
  cases h
  rfl

def hex (d : Digest) : String := String.ofList (d.bytes.flatMap hexByte)

def zero : Digest := ⟨List.replicate 32 0, rfl⟩

end Digest

def zeroHashHex : String := String.ofList (List.replicate 64 '0')

theorem zero_hex : Digest.zero.hex = zeroHashHex := by decide

theorem hexDigit_not_space : ∀ n < 16, isAsciiSpace (hexDigit n) = false := by decide

theorem fromHexChars_hexByte (b : UInt8) (rest : List Char) :
    fromHexChars (hexByte b ++ rest) = (fromHexChars rest).map (b :: ·) := by
  have bound : b.toNat < 256 := b.toNat_lt
  have high : b.toNat / 16 < 16 := by omega
  have low : b.toNat % 16 < 16 := by omega
  have value : 16 * (b.toNat / 16) + b.toNat % 16 = b.toNat := by omega
  simp only [hexByte, List.cons_append, List.nil_append, fromHexChars,
    hexDigit_not_space _ high, Bool.false_eq_true, if_false, hexValue_hexDigit _ high,
    hexValue_hexDigit _ low, bind, Option.bind, value, UInt8.ofNat_toNat]
  cases fromHexChars rest <;> rfl

/-- `bytes.hex`. -/
def hexText (bytes : Bytes) : String := String.ofList (bytes.flatMap hexByte)

theorem fromHex_hexText (bytes : Bytes) : fromHex (hexText bytes) = .ok bytes := by
  have chars : fromHexChars (bytes.flatMap hexByte) = some bytes := by
    induction bytes with
    | nil => rfl
    | cons b rest ih => rw [List.flatMap_cons, fromHexChars_hexByte, ih]; rfl
  rw [fromHex, hexText, String.toList_ofList, chars]

theorem hexText_injective : Function.Injective hexText := by
  intro a b same
  have back := fromHex_hexText a
  rw [same, fromHex_hexText b] at back
  exact (Except.ok.inj back).symm

theorem hexText_ne_empty {bytes : Bytes} (some : bytes ≠ []) : hexText bytes ≠ "" := by
  cases bytes with
  | nil => exact absurd rfl some
  | cons b rest =>
    intro empty
    have chars := congrArg String.toList empty
    rw [hexText, String.toList_ofList] at chars
    cases chars

theorem fromHex_hex (d : Digest) : fromHex d.hex = .ok d.bytes := fromHex_hexText d.bytes

theorem hex_injective {a b : Digest} (h : a.hex = b.hex) : a = b :=
  Digest.ext (hexText_injective h)

theorem utf8_injective {a b : String} (h : utf8 a = utf8 b) : a = b := by
  have data : a.toByteArray.data = b.toByteArray.data := Array.toList_inj.mp h
  exact String.toByteArray_inj.mp (ByteArray.ext data)

end Py
