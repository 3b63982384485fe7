import HorizonRic.Python.JsonRoundTrip

/-!
Names of files as strings: `os.fsdecode` turns a byte that is not UTF-8 into a lone
surrogate, which `json` escapes like any other character.
-/
namespace Py

inductive NameChar where
  | char (c : Char)
  /-- The byte `0x80 + b`. -/
  | byte (b : Fin 128)
  deriving DecidableEq

namespace NameChar

def codePoint : NameChar → ℕ
  | .char c => c.toNat
  | .byte b => 0xdc80 + b

theorem codePoint_injective {x y : NameChar} (same : x.codePoint = y.codePoint) : x = y := by
  have scalar : ∀ (c : Char) (b : Fin 128), c.toNat ≠ 0xdc80 + b := by
    intro c b equal
    have valid : c.toNat < 0xd800 ∨ 0xdfff < c.toNat ∧ c.toNat < 0x110000 := c.valid
    omega
  cases x with
  | char c =>
    cases y with
    | char d => exact congrArg char (Char.toNat_inj.mp same)
    | byte b => exact (scalar c b same).elim
  | byte b =>
    cases y with
    | char d => exact (scalar d b same.symm).elim
    | byte b' =>
      change 0xdc80 + (b : ℕ) = 0xdc80 + b' at same
      exact congrArg byte (Fin.ext (by omega))

/-- As `json` writes it in ASCII. -/
def escape : NameChar → List Char
  | .char c => Json.escapeChar c
  | .byte b => Json.unicodeEscape (0xdc80 + b)

theorem escape_head (x : NameChar) : ∃ h t, x.escape = h :: t ∧ h ≠ '"' := by
  cases x with
  | char c => exact Json.escapeChar_head c
  | byte b => exact ⟨'\\', _, rfl, by decide⟩

theorem scanChar_byte (b : Fin 128) (rest : List Char) :
    Json.scanChar (Json.unicodeEscape (0xdc80 + b) ++ rest) = none := by
  have notHigh : Json.isHigh (0xdc80 + b) = false := by
    simp only [Json.isHigh, Bool.and_eq_false_iff, decide_eq_false_iff_not]
    omega
  have low : Json.isLow (0xdc80 + b) = true := by
    simp only [Json.isLow, Bool.and_eq_true, decide_eq_true_eq]
    omega
  simp only [Json.unicodeEscape, Json.hex4, List.cons_append, List.nil_append, Json.scanChar,
    Json.hexNumber_hex4 (show 0xdc80 + (b : ℕ) < 0x10000 by omega), notHigh, low]
  rfl

theorem unicodeEscape_unique {m n : ℕ} (hm : m < 0x10000) (hn : n < 0x10000) {a b : List Char}
    (same : Json.unicodeEscape m ++ a = Json.unicodeEscape n ++ b) : m = n ∧ a = b := by
  simp only [Json.unicodeEscape, Json.hex4, List.cons_append, List.nil_append, List.cons.injEq,
    true_and] at same
  obtain ⟨d₁, d₂, d₃, d₄, rest⟩ := same
  have left := Json.hexNumber_hex4 hm
  rw [d₁, d₂, d₃, d₄, Json.hexNumber_hex4 hn] at left
  exact ⟨(Option.some.inj left).symm, rest⟩

/-- No escape is the beginning of another one. -/
theorem escape_unique {x y : NameChar} {a b : List Char} (same : x.escape ++ a = y.escape ++ b) :
    x = y ∧ a = b := by
  cases x with
  | char c =>
    have left := Json.scanChar_escapeChar c a
    cases y with
    | char d =>
      have right := Json.scanChar_escapeChar d b
      change Json.escapeChar c ++ a = Json.escapeChar d ++ b at same
      rw [same, right] at left
      cases left
      exact ⟨rfl, rfl⟩
    | byte b' =>
      change Json.escapeChar c ++ a = Json.unicodeEscape _ ++ b at same
      rw [same, scanChar_byte] at left
      cases left
  | byte b' =>
    cases y with
    | char d =>
      have right := Json.scanChar_escapeChar d b
      change Json.unicodeEscape _ ++ a = Json.escapeChar d ++ b at same
      rw [← same, scanChar_byte] at right
      cases right
    | byte b'' =>
      obtain ⟨equal, rest⟩ := unicodeEscape_unique (by omega) (by omega) same
      exact ⟨congrArg byte (Fin.ext (by omega)), rest⟩

end NameChar

def quoteName (name : List NameChar) : List Char := '"' :: (name.flatMap NameChar.escape ++ ['"'])

theorem quoteName_string (s : String) : quoteName (s.toList.map NameChar.char) = Json.quote s := by
  unfold quoteName Json.quote
  rw [List.flatMap_map]
  rfl

/-- What is quoted ends at its own closing quote. -/
theorem quoteName_unique {x y : List NameChar} {a b : List Char}
    (same : quoteName x ++ a = quoteName y ++ b) : x = y ∧ a = b := by
  simp only [quoteName, List.cons_append, List.append_assoc, List.nil_append, List.cons.injEq,
    true_and] at same
  induction x generalizing y with
  | nil =>
    cases y with
    | nil => exact ⟨rfl, (List.cons.inj same).2⟩
    | cons d rest' =>
      obtain ⟨h, t, head, other⟩ := d.escape_head
      rw [List.flatMap_nil, List.nil_append, List.flatMap_cons, head] at same
      exact (other (List.cons.inj same).1.symm).elim
  | cons c rest ih =>
    cases y with
    | nil =>
      obtain ⟨h, t, head, other⟩ := c.escape_head
      rw [List.flatMap_nil, List.nil_append, List.flatMap_cons, head] at same
      exact (other (List.cons.inj same).1).elim
    | cons d rest' =>
      rw [List.flatMap_cons, List.flatMap_cons, List.append_assoc, List.append_assoc] at same
      obtain ⟨first, later⟩ := NameChar.escape_unique same
      obtain ⟨others, ends⟩ := ih later
      exact ⟨by rw [first, others], ends⟩

end Py
