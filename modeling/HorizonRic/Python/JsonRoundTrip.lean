import HorizonRic.Python.Json
import HorizonRic.Python.Raises

/-!
`loads` reads back what `dumps` writes. A value is readable when its mappings
have distinct keys, its integers are short enough and the text of each of its
floats is a number token that parses to the same float.
-/
namespace Py.Json

/-! Characters of a string literal. -/

theorem hexNumber_hex4 {n : Nat} (bound : n < 0x10000) :
    hexNumber (hexDigit (n / 4096 % 16)) (hexDigit (n / 256 % 16)) (hexDigit (n / 16 % 16))
      (hexDigit (n % 16)) = some n := by
  unfold hexNumber
  rw [hexValue_hexDigit _ (Nat.mod_lt _ (by decide)), hexValue_hexDigit _ (Nat.mod_lt _ (by decide)),
    hexValue_hexDigit _ (Nat.mod_lt _ (by decide)), hexValue_hexDigit _ (Nat.mod_lt _ (by decide))]
  simp only [bind, Option.bind]
  congr 1
  omega

theorem char_range (c : Char) : c.toNat < 0xd800 ∨ (0xdfff < c.toNat ∧ c.toNat < 0x110000) :=
  c.valid

theorem not_high_of_char (c : Char) : isHigh c.toNat = false := by
  have range := char_range c
  simp only [isHigh, Bool.and_eq_false_iff, decide_eq_false_iff_not]
  omega

theorem not_low_of_char (c : Char) : isLow c.toNat = false := by
  have range := char_range c
  simp only [isLow, Bool.and_eq_false_iff, decide_eq_false_iff_not]
  omega

/-- The characters with an escape of two characters, each with its letter. -/
def shortEscapes : List (Char × Char) :=
  [('"', '"'), ('\\', '\\'), ('\n', 'n'), ('\r', 'r'), ('\t', 't'), ('\x0c', 'f'),
    ('\x08', 'b')]

theorem shortEscape_mem {c letter : Char} (h : shortEscape c = some letter) :
    (c, letter) ∈ shortEscapes := by
  unfold shortEscape at h
  split at h
  · cases h; subst_vars; decide
  split at h
  · cases h; subst_vars; decide
  split at h
  · cases h; subst_vars; decide
  split at h
  · cases h; subst_vars; decide
  split at h
  · cases h; subst_vars; decide
  split at h
  · cases h; subst_vars; decide
  split at h
  · cases h; subst_vars; decide
  · cases h

theorem shortEscape_cases {c letter : Char} (h : shortEscape c = some letter) :
    unescape letter = some c ∧ letter ≠ 'u' := by
  have each : ∀ pair ∈ shortEscapes, unescape pair.2 = some pair.1 ∧ pair.2 ≠ 'u' := by decide
  exact each _ (shortEscape_mem h)

theorem plain_of_shortEscape_none {c : Char} (h : shortEscape c = none) : c ≠ '"' ∧ c ≠ '\\' := by
  constructor <;> rintro rfl <;> cases h

theorem scanChar_letter {letter : Char} (notHex : letter ≠ 'u') (rest : List Char) :
    scanChar ('\\' :: letter :: rest) = (unescape letter).map fun c => (c, rest) := by
  unfold scanChar
  split
  · rename_i same
    exact absurd (List.cons.inj (List.cons.inj same).2).1 notHex
  · rename_i same
    cases same
    rfl
  · rename_i notEscape same
    cases same
    exact absurd rfl (notEscape letter rest rfl)
  · rename_i same
    cases same

theorem scanChar_unicode {n : Nat} (bound : n < 0x10000) (rest : List Char)
    (notHigh : isHigh n = false) (notLow : isLow n = false) :
    scanChar (unicodeEscape n ++ rest) = some (Char.ofNat n, rest) := by
  simp only [unicodeEscape, hex4, List.cons_append, List.nil_append, scanChar,
    hexNumber_hex4 bound, notHigh, notLow, Bool.false_eq_true, if_false]

theorem scanChar_surrogates {high low : Nat} (highBound : isHigh high = true)
    (lowBound : isLow low = true) (rest : List Char) :
    scanChar (unicodeEscape high ++ (unicodeEscape low ++ rest)) =
      some (Char.ofNat (0x10000 + (high - 0xd800) * 1024 + (low - 0xdc00)), rest) := by
  have h : high < 0x10000 := by simp [isHigh] at highBound; omega
  have l : low < 0x10000 := by simp [isLow] at lowBound; omega
  simp only [unicodeEscape, hex4, List.cons_append, List.nil_append, scanChar,
    hexNumber_hex4 h, hexNumber_hex4 l, highBound, lowBound, if_true]

theorem scanChar_escapeChar (c : Char) (rest : List Char) :
    scanChar (escapeChar c ++ rest) = some (c, rest) := by
  unfold escapeChar
  split
  · rename_i letter short
    obtain ⟨back, notHex⟩ := shortEscape_cases short
    rw [List.cons_append, List.cons_append, List.nil_append, scanChar_letter notHex, back]
    rfl
  · rename_i long
    obtain ⟨notQuote, notBackslash⟩ := plain_of_shortEscape_none long
    split
    · rename_i printable
      have notControl : ¬c.toNat < 0x20 := by omega
      simp only [List.cons_append, List.nil_append]
      unfold scanChar
      split <;> simp_all
    · split
      · rename_i bmp
        rw [scanChar_unicode bmp rest (not_high_of_char c) (not_low_of_char c), Char.ofNat_toNat]
      · rename_i astral
        have range := char_range c
        rw [List.append_assoc, scanChar_surrogates]
        · have sum : 0x10000 + (0xd800 + (c.toNat - 0x10000) / 1024 - 0xd800) * 1024 +
              (0xdc00 + (c.toNat - 0x10000) % 1024 - 0xdc00) = c.toNat := by omega
          rw [sum, Char.ofNat_toNat]
        · simp only [isHigh, Bool.and_eq_true, decide_eq_true_eq]
          omega
        · simp only [isLow, Bool.and_eq_true, decide_eq_true_eq]
          omega

theorem escapeChar_head (c : Char) : ∃ h t, escapeChar c = h :: t ∧ h ≠ '"' := by
  unfold escapeChar
  split
  · exact ⟨_, _, rfl, by decide⟩
  · rename_i long
    split
    · exact ⟨c, [], rfl, (plain_of_shortEscape_none long).1⟩
    · split
      · exact ⟨_, _, rfl, by decide⟩
      · exact ⟨_, _, rfl, by decide⟩

theorem scanString_escaped (s rest : List Char) (fuel : Nat) (enough : s.length ≤ fuel) :
    scanString fuel (s.flatMap escapeChar ++ '"' :: rest) = some (s, rest) := by
  induction s generalizing fuel with
  | nil => cases fuel <;> rfl
  | cons c s ih =>
    cases fuel with
    | zero => simp at enough
    | succ fuel =>
      obtain ⟨h, t, shape, notQuote⟩ := escapeChar_head c
      have step := scanChar_escapeChar c (s.flatMap escapeChar ++ '"' :: rest)
      have later := ih fuel (by simpa using enough)
      rw [List.flatMap_cons, List.append_assoc]
      rw [shape, List.cons_append] at step ⊢
      rw [scanString]
      · simp only [step, later, bind, Option.bind]
      · intro rest' same
        exact notQuote (List.cons.inj same).1

theorem parseString_quoted (s : String) (rest : List Char) :
    parseString (s.toList.flatMap escapeChar ++ '"' :: rest) = .ok (s, rest) := by
  have enough : s.toList.length ≤ (s.toList.flatMap escapeChar ++ '"' :: rest).length := by
    have : s.toList.length ≤ (s.toList.flatMap escapeChar).length := by
      induction s.toList with
      | nil => simp
      | cons c cs ih =>
        obtain ⟨h, t, shape, _⟩ := escapeChar_head c
        simp only [List.flatMap_cons, shape, List.length_cons, List.length_append]
        omega
    simp only [List.length_append]
    omega
  rw [parseString, scanString_escaped _ _ _ enough]
  simp

/-! Numbers. -/

/-- What may follow a number token. -/
def Stops (rest : List Char) : Prop :=
  ∀ c tail, rest = c :: tail → c.isDigit = false ∧ c ≠ '.' ∧ c ≠ 'e' ∧ c ≠ 'E'

theorem stops_nil : Stops [] := by
  intro c tail h
  cases h

theorem stops_cons {c : Char} (tail : List Char)
    (h : c.isDigit = false ∧ c ≠ '.' ∧ c ≠ 'e' ∧ c ≠ 'E') : Stops (c :: tail) := by
  intro c' tail' same
  cases same
  exact h

def AllDigits (cs : List Char) : Prop := ∀ c ∈ cs, c.isDigit = true

/-- A run of digits ends where the next character is none. -/
theorem scanDigits_append {digits rest : List Char} (all : AllDigits digits)
    (stop : ∀ c tail, rest = c :: tail → c.isDigit = false) :
    scanDigits (digits ++ rest) = (digits, rest) := by
  have taken : rest.takeWhile Char.isDigit = [] := by
    cases rest with
    | nil => rfl
    | cons c tail => simp [stop c tail rfl]
  have dropped : rest.dropWhile Char.isDigit = rest := by
    cases rest with
    | nil => rfl
    | cons c tail => simp [stop c tail rfl]
  rw [scanDigits, List.takeWhile_append_of_pos all, List.dropWhile_append_of_pos all, taken,
    dropped, List.append_nil]

/-- The digits before a fraction: a zero, or digits that do not start with one. -/
def WholeDigits (cs : List Char) : Prop :=
  cs = ['0'] ∨ ∃ c tail, cs = c :: tail ∧ c ≠ '0' ∧ AllDigits cs

theorem scanWhole_append {whole rest : List Char} (shape : WholeDigits whole)
    (stop : ∀ c tail, rest = c :: tail → c.isDigit = false) :
    scanWhole (whole ++ rest) = some (whole, rest) := by
  rcases shape with rfl | ⟨c, tail, rfl, notZero, all⟩
  · rfl
  · have digit : c.isDigit = true := all c List.mem_cons_self
    have scan := scanDigits_append all stop
    rw [List.cons_append] at scan ⊢
    unfold scanWhole
    split
    · rename_i same
      exact absurd (List.cons.inj same).1 notZero
    · rename_i same
      cases same
      rw [if_pos digit, scan]
    · rename_i same
      cases same

def FractionText (cs : List Char) : Prop :=
  cs = [] ∨ ∃ c tail, cs = '.' :: c :: tail ∧ AllDigits (c :: tail)

def ExponentText (cs : List Char) : Prop :=
  cs = [] ∨ ∃ e sign c tail, cs = e :: (sign ++ c :: tail) ∧ (e = 'e' ∨ e = 'E') ∧
    (sign = [] ∨ sign = ['+'] ∨ sign = ['-']) ∧ AllDigits (c :: tail)

theorem scanFraction_append {fraction rest : List Char} (shape : FractionText fraction)
    (stop : ∀ c tail, rest = c :: tail → c.isDigit = false ∧ c ≠ '.') :
    scanFraction (fraction ++ rest) = (fraction, rest) := by
  rcases shape with rfl | ⟨c, tail, rfl, all⟩
  · rw [List.nil_append]
    unfold scanFraction
    split
    · exact absurd rfl (stop _ _ rfl).2
    · rfl
  · have scan := scanDigits_append all (fun c tail same => (stop c tail same).1)
    rw [List.cons_append] at scan
    simp only [List.cons_append, scanFraction, all c List.mem_cons_self, if_true, scan]

theorem isDigit_ne {c other : Char} (digit : c.isDigit = true) (notDigit : other.isDigit = false) :
    c ≠ other := by
  rintro rfl
  rw [digit] at notDigit
  cases notDigit

theorem scanSign_append {sign : List Char} (tail : List Char) {c : Char}
    (shape : sign = [] ∨ sign = ['+'] ∨ sign = ['-']) (digit : c.isDigit = true) :
    scanSign (sign ++ c :: tail) = (sign, c :: tail) := by
  have notPlus : c ≠ '+' := isDigit_ne digit rfl
  have notMinus : c ≠ '-' := isDigit_ne digit rfl
  rcases shape with rfl | rfl | rfl
  · rw [List.nil_append]
    unfold scanSign
    split <;> simp_all
  · rfl
  · rfl

theorem scanExponent_append {exponent rest : List Char} (shape : ExponentText exponent)
    (stop : Stops rest) : scanExponent (exponent ++ rest) = (exponent, rest) := by
  rcases shape with rfl | ⟨e, sign, c, tail, rfl, letter, signs, all⟩
  · cases rest with
    | nil => rfl
    | cons c tail =>
      obtain ⟨_, _, notLower, notUpper⟩ := stop c tail rfl
      simp [scanExponent, notLower, notUpper]
  · have digit : c.isDigit = true := all c List.mem_cons_self
    have scan := scanDigits_append all (fun c tail same => (stop c tail same).1)
    rw [List.cons_append] at scan
    have sign' := scanSign_append (tail ++ rest) signs digit
    simp only [List.cons_append, List.append_assoc, scanExponent, letter, if_true, sign', digit,
      scan]

theorem scanMinus_append {minus tail : List Char} {c : Char} (shape : minus = [] ∨ minus = ['-'])
    (digit : c.isDigit = true) : scanMinus (minus ++ c :: tail) = (minus, c :: tail) := by
  have notMinus : c ≠ '-' := isDigit_ne digit rfl
  rcases shape with rfl | rfl
  · rw [List.nil_append]
    unfold scanMinus
    split <;> simp_all
  · rfl

theorem wholeDigits_head {whole : List Char} (shape : WholeDigits whole) :
    ∃ c tail, whole = c :: tail ∧ c.isDigit = true := by
  rcases shape with rfl | ⟨c, tail, rfl, _, all⟩
  · exact ⟨'0', [], rfl, rfl⟩
  · exact ⟨c, tail, rfl, all c List.mem_cons_self⟩

theorem fraction_exponent_head {fraction exponent : List Char} (hf : FractionText fraction)
    (he : ExponentText exponent) {rest : List Char} (stop : Stops rest) (c : Char)
    (tail : List Char) (same : fraction ++ (exponent ++ rest) = c :: tail) :
    c.isDigit = false := by
  rcases hf with rfl | ⟨d, more, rfl, _⟩
  · rcases he with rfl | ⟨e, sign, d, more, rfl, letter, _⟩
    · exact (stop c tail same).1
    · cases same
      rcases letter with rfl | rfl <;> rfl
  · cases same
    rfl

theorem exponent_head {exponent : List Char} (he : ExponentText exponent) {rest : List Char}
    (stop : Stops rest) (c : Char) (tail : List Char) (same : exponent ++ rest = c :: tail) :
    c.isDigit = false ∧ c ≠ '.' := by
  rcases he with rfl | ⟨e, sign, d, more, rfl, letter, _⟩
  · exact ⟨(stop c tail same).1, (stop c tail same).2.1⟩
  · cases same
    rcases letter with rfl | rfl <;> exact ⟨rfl, by decide⟩

/-- A number token is scanned whole, up to what may follow one. -/
theorem scanNumber_append {minus whole fraction exponent rest : List Char}
    (hm : minus = [] ∨ minus = ['-']) (hw : WholeDigits whole) (hf : FractionText fraction)
    (he : ExponentText exponent) (stop : Stops rest) :
    scanNumber (minus ++ (whole ++ (fraction ++ (exponent ++ rest)))) =
      some (minus ++ whole, fraction ++ exponent, rest) := by
  obtain ⟨c, tail, shape, digit⟩ := wholeDigits_head hw
  have minusScan : scanMinus (minus ++ (whole ++ (fraction ++ (exponent ++ rest)))) =
      (minus, whole ++ (fraction ++ (exponent ++ rest))) := by
    rw [shape, List.cons_append]
    exact scanMinus_append hm digit
  have wholeScan := scanWhole_append hw (fraction_exponent_head hf he stop)
  have fractionScan := scanFraction_append hf (exponent_head he stop)
  have exponentScan := scanExponent_append he stop
  simp only [scanNumber, minusScan, wholeScan, fractionScan, exponentScan]

theorem allDigits_toDigits (n : Nat) : AllDigits (Nat.toDigits 10 n) :=
  fun _ member => Nat.isDigit_of_mem_toDigits (by decide) (by decide) member

theorem wholeDigits_toDigits (n : Nat) : WholeDigits (Nat.toDigits 10 n) := by
  induction n using Nat.strongRecOn with
  | ind n ih =>
    by_cases small : n < 10
    · have all := allDigits_toDigits n
      rw [Nat.toDigits_of_lt_base small] at all ⊢
      by_cases zero : n = 0
      · subst zero
        exact Or.inl rfl
      · have notZero : ∀ m < 10, m ≠ 0 → Nat.digitChar m ≠ '0' := by decide
        exact Or.inr ⟨_, [], rfl, notZero n small zero, all⟩
    · rw [Nat.toDigits_of_base_le (by decide) (by omega)]
      have all : AllDigits (Nat.toDigits 10 (n / 10) ++ [Nat.digitChar (n % 10)]) := by
        rw [← Nat.toDigits_of_base_le (by decide) (by omega)]
        exact allDigits_toDigits n
      rcases ih (n / 10) (by omega) with zero | ⟨c, tail, shape, notZero, _⟩
      · exfalso
        have value := Nat.ofDigitChars_ten_toDigits (n := n / 10)
        rw [zero] at value
        have : n / 10 = 0 := value.symm
        omega
      · refine Or.inr ⟨c, tail ++ [Nat.digitChar (n % 10)], ?_, notZero, all⟩
        rw [shape, List.cons_append]

/-- The text of an integer: a sign and its digits. -/
theorem int_text (n : Int) : ∃ minus whole, (toString n).toList = minus ++ whole ∧
    (minus = [] ∨ minus = ['-']) ∧ WholeDigits whole ∧ intOfToken (minus ++ whole) = n := by
  cases n with
  | ofNat m =>
    refine ⟨[], Nat.toDigits 10 m, ?_, Or.inl rfl, wholeDigits_toDigits m, ?_⟩
    · exact Nat.toList_repr
    · obtain ⟨c, tail, shape, digit⟩ := wholeDigits_head (wholeDigits_toDigits m)
      have value := Nat.ofDigitChars_ten_toDigits (n := m)
      rw [List.nil_append]
      unfold intOfToken
      split
      · rename_i same
        rw [shape] at same
        exact absurd (List.cons.inj same).1 (isDigit_ne digit rfl)
      · rw [value]
        rfl
  | negSucc m =>
    refine ⟨['-'], Nat.toDigits 10 (m + 1), ?_, Or.inr rfl, wholeDigits_toDigits _, ?_⟩
    · change ("-" ++ Nat.repr (m + 1)).toList = _
      rw [String.toList_append, Nat.toList_repr]
      rfl
    · have value := Nat.ofDigitChars_ten_toDigits (n := m + 1)
      simp only [List.cons_append, List.nil_append, intOfToken, value]
      rfl

/-! Values. -/

section
variable (py : Interpreter)

/-- The text of a float is a number token with a fraction or an exponent, and parses
    to the same float. -/
structure FloatReadable (q : ℚ) : Prop where
  token : ∃ minus whole fraction exponent,
    (py.floatRepr (.fin q)).toList = minus ++ (whole ++ (fraction ++ exponent)) ∧
      (minus = [] ∨ minus = ['-']) ∧ WholeDigits whole ∧ FractionText fraction ∧
      ExponentText exponent ∧ fraction ++ exponent ≠ []
  back : py.floatOfStr (py.floatRepr (.fin q)) = some (.fin q)

def NumReadable : Number → Prop
  | .fin q => FloatReadable py q
  | _ => True

mutual
def Readable : Value → Prop
  | .int n => intDigitsOk n = true
  | .float x => NumReadable py x
  | .list xs => ReadableList xs
  | .dict entries => (entries.map Prod.fst).Nodup ∧ ReadableItems entries
  | _ => True

def ReadableList : List Value → Prop
  | [] => True
  | x :: xs => Readable x ∧ ReadableList xs

def ReadableItems : List (String × Value) → Prop
  | [] => True
  | (_, x) :: rest => Readable x ∧ ReadableItems rest
end

/-- How a number text starts. -/
def NumberHead (cs : List Char) : Prop :=
  ∃ c tail, cs = c :: tail ∧
    (c.isDigit = true ∨ c = '-' ∧ ∃ d more, tail = d :: more ∧ d.isDigit = true)

theorem int_text_unique {m n : Int} (same : (toString m).toList = (toString n).toList) : m = n := by
  obtain ⟨minus, whole, text, _, _, value⟩ := int_text m
  obtain ⟨minus', whole', text', _, _, value'⟩ := int_text n
  rw [← value, ← value', ← text, ← text', same]

theorem numberHead_append {minus whole : List Char} (hm : minus = [] ∨ minus = ['-'])
    (hw : WholeDigits whole) (rest : List Char) : NumberHead (minus ++ (whole ++ rest)) := by
  obtain ⟨c, tail, shape, digit⟩ := wholeDigits_head hw
  rcases hm with rfl | rfl
  · exact ⟨c, tail ++ rest, by rw [shape]; rfl, Or.inl digit⟩
  · exact ⟨'-', c :: tail ++ rest, by rw [shape]; rfl, Or.inr ⟨rfl, c, tail ++ rest, rfl, digit⟩⟩

theorem parseAtom_number {cs : List Char} (head : NumberHead cs) :
    parseAtom py cs = parseNumber py cs := by
  obtain ⟨c, tail, shape, digit | ⟨minus, d, more, rfl, digit⟩⟩ := head
  · unfold parseAtom
    split
    all_goals first
      | rfl
      | (cases shape; cases digit)
  · subst minus
    unfold parseAtom
    split
    all_goals first
      | rfl
      | (cases shape <;> cases digit)

theorem parseNumber_int {n : Int} (short : intDigitsOk n = true) {rest : List Char}
    (stop : Stops rest) : parseNumber py ((toString n).toList ++ rest) = .ok (.int n, rest) := by
  obtain ⟨minus, whole, text, hm, hw, value⟩ := int_text n
  have scan := scanNumber_append hm hw (Or.inl rfl) (Or.inl rfl) stop
  simp only [List.nil_append] at scan
  rw [parseNumber, text, List.append_assoc, scan]
  simp only [value, short, if_true]

theorem parseNumber_float {q : ℚ} (readable : FloatReadable py q) {rest : List Char}
    (stop : Stops rest) :
    parseNumber py ((py.floatRepr (.fin q)).toList ++ rest) = .ok (.float (.fin q), rest) := by
  obtain ⟨minus, whole, fraction, exponent, text, hm, hw, hf, he, notInt⟩ := readable.token
  have scan := scanNumber_append hm hw hf he stop
  have whole' : String.ofList (minus ++ whole ++ (fraction ++ exponent)) =
      py.floatRepr (.fin q) := by
    rw [List.append_assoc, ← text, String.ofList_toList]
  rw [parseNumber, text]
  simp only [List.append_assoc] at scan ⊢
  rw [scan]
  split
  · rename_i none
    cases none
  · rename_i same
    simp only [Option.some.injEq, Prod.mk.injEq] at same
    exact absurd same.2.1 notInt
  · rename_i same
    simp only [Option.some.injEq, Prod.mk.injEq] at same
    obtain ⟨rfl, rfl, rfl⟩ := same
    rw [whole', readable.back]

/-- Separators the scanner reads: a mark, and then whitespace. -/
structure Style.Plain (style : Style) : Prop where
  item : ∃ space, style.itemSep = ',' :: space ∧ ∀ c ∈ space, isSpace c = true
  key : ∃ space, style.keySep = ':' :: space ∧ ∀ c ∈ space, isSpace c = true

theorem spaced_plain : spaced.Plain :=
  ⟨⟨[' '], rfl, List.forall_mem_singleton.mpr rfl⟩, ⟨[' '], rfl, List.forall_mem_singleton.mpr rfl⟩⟩

theorem compact_plain : compact.Plain :=
  ⟨⟨[], rfl, List.forall_mem_nil _⟩, ⟨[], rfl, List.forall_mem_nil _⟩⟩

theorem skipSpace_append {space rest : List Char} (all : ∀ c ∈ space, isSpace c = true) :
    skipSpace (space ++ rest) = skipSpace rest := by
  rw [skipSpace, skipSpace, List.dropWhile_append_of_pos all]

theorem skipSpace_cons {c : Char} (tail : List Char) (h : isSpace c = false) :
    skipSpace (c :: tail) = c :: tail := by
  simp [skipSpace, h]

/-- A value's text starts with neither whitespace nor a closing bracket. -/
def ValueHead (cs : List Char) : Prop :=
  ∃ c tail, cs = c :: tail ∧ isSpace c = false ∧ c ≠ ']'

theorem digit_head {c : Char} (digit : c.isDigit = true) : isSpace c = false ∧ c ≠ ']' := by
  refine ⟨?_, isDigit_ne digit rfl⟩
  have notSpace : c ≠ ' ' := isDigit_ne digit rfl
  have notTab : c ≠ '\t' := isDigit_ne digit rfl
  have notNewline : c ≠ '\n' := isDigit_ne digit rfl
  have notReturn : c ≠ '\r' := isDigit_ne digit rfl
  simp [isSpace, notSpace, notTab, notNewline, notReturn]

theorem numberHead_valueHead {cs : List Char} (head : NumberHead cs) : ValueHead cs := by
  obtain ⟨c, tail, shape, digit | ⟨rfl, _⟩⟩ := head
  · exact ⟨c, tail, shape, digit_head digit⟩
  · exact ⟨'-', tail, shape, by decide, by decide⟩

theorem int_numberHead (n : Int) (rest : List Char) : NumberHead ((toString n).toList ++ rest) := by
  obtain ⟨minus, whole, text, hm, hw, _⟩ := int_text n
  rw [text, List.append_assoc]
  exact numberHead_append hm hw rest

theorem float_numberHead {q : ℚ} (readable : FloatReadable py q) (rest : List Char) :
    NumberHead ((py.floatRepr (.fin q)).toList ++ rest) := by
  obtain ⟨minus, whole, fraction, exponent, text, hm, hw, _⟩ := readable.token
  rw [text, List.append_assoc, List.append_assoc]
  exact numberHead_append hm hw _

theorem print_valueHead (style : Style) {v : Value} (readable : Readable py v) :
    ValueHead (print py style v) := by
  cases v with
  | null => exact ⟨_, _, rfl, by decide, by decide⟩
  | bool b => cases b <;> exact ⟨_, _, rfl, by decide, by decide⟩
  | int n =>
    have head := int_numberHead n []
    rw [List.append_nil] at head
    exact numberHead_valueHead head
  | float x =>
    cases x with
    | nan => exact ⟨_, _, rfl, by decide, by decide⟩
    | inf negative => cases negative <;> exact ⟨_, _, rfl, by decide, by decide⟩
    | fin q =>
      have head := float_numberHead py readable []
      rw [List.append_nil] at head
      exact numberHead_valueHead head
  | str s => exact ⟨_, _, rfl, by decide, by decide⟩
  | list xs => exact ⟨_, _, rfl, by decide, by decide⟩
  | dict entries => exact ⟨_, _, rfl, by decide, by decide⟩

theorem set_append {d : Dict Value} {key : String} (fresh : key ∉ d.map Prod.fst) (v : Value) :
    Dict.set key v d = d ++ [(key, v)] := by
  induction d with
  | nil => rfl
  | cons item rest ih =>
    obtain ⟨k, w⟩ := item
    simp only [List.map_cons, List.mem_cons, not_or] at fresh
    rw [Dict.set, if_neg (fun same => fresh.1 same.symm), ih fresh.2]
    rfl

theorem dictOfPairs_nodup {pairs : List (String × Value)} (nodup : (pairs.map Prod.fst).Nodup) :
    dictOfPairs pairs = pairs := by
  have general : ∀ (pairs : List (String × Value)) (d : Dict Value),
      ((d ++ pairs).map Prod.fst).Nodup →
        pairs.foldl (fun d pair => d.set pair.1 pair.2) d = d ++ pairs := by
    intro pairs
    induction pairs with
    | nil => intro d _; simp
    | cons pair rest ih =>
      intro d distinct
      have fresh : pair.1 ∉ d.map Prod.fst := by
        intro member
        rw [List.map_append, List.nodup_append] at distinct
        exact distinct.2.2 _ member _ (by simp) rfl
      rw [List.foldl_cons, set_append fresh, ih]
      · simp
      · simpa using distinct
  exact general pairs [] nodup

end

section
variable (py : Interpreter) {style : Style}

theorem parseValue_atom {cs : List Char} (fuel : Nat) (notQuote : ∀ t, cs ≠ '"' :: t)
    (notList : ∀ t, cs ≠ '[' :: t) (notDict : ∀ t, cs ≠ '\x7b' :: t) :
    parseValue py (fuel + 1) cs = parseAtom py cs := by
  unfold parseValue
  split
  · exact absurd rfl (notQuote _)
  · exact absurd rfl (notList _)
  · exact absurd rfl (notDict _)
  · rfl

theorem parseValue_number {cs : List Char} (head : NumberHead cs) (fuel : Nat) :
    parseValue py (fuel + 1) cs = parseNumber py cs := by
  have start : ∀ other : Char, other.isDigit = false → other ≠ '-' → ∀ t, cs ≠ other :: t := by
    intro other notDigit notMinus t same
    obtain ⟨c, tail, shape, digit | ⟨minus, _⟩⟩ := head
    · rw [same] at shape
      rw [← (List.cons.inj shape).1, notDigit] at digit
      cases digit
    · rw [same] at shape
      exact notMinus ((List.cons.inj shape).1.trans minus)
  rw [parseValue_atom py fuel (start _ rfl (by decide)) (start _ rfl (by decide))
    (start _ rfl (by decide)), parseAtom_number py head]

theorem stops_bracket {c : Char} (tail : List Char)
    (h : c = ',' ∨ c = ']' ∨ c = '\x7d') : Stops (c :: tail) := by
  apply stops_cons tail
  rcases h with rfl | rfl | rfl <;> exact ⟨rfl, by decide, by decide, by decide⟩

theorem elements_head (style : Style) {x : Value} (readable : Readable py x) (xs : List Value) :
    ValueHead (printElements py style (x :: xs)) := by
  obtain ⟨c, tail, shape, space, bracket⟩ := print_valueHead py style readable
  cases xs with
  | nil => exact ⟨c, tail, shape, space, bracket⟩
  | cons y ys =>
    refine ⟨c, tail ++ (style.itemSep ++ printElements py style (y :: ys)), ?_, space, bracket⟩
    simp only [printElements, shape, List.cons_append, List.append_assoc]

def ReadsValues (style : Style) (fuel : Nat) : Prop :=
  ∀ v rest, Readable py v → 2 * (print py style v).length ≤ fuel → Stops rest →
    parseValue py fuel (print py style v ++ rest) = .ok (v, rest)

def ReadsElements (style : Style) (fuel : Nat) : Prop :=
  ∀ x xs rest, ReadableList py (x :: xs) →
    2 * (printElements py style (x :: xs)).length + 1 ≤ fuel →
      parseElements py fuel (printElements py style (x :: xs) ++ ']' :: rest) =
        .ok (x :: xs, rest)

def ReadsMembers (style : Style) (fuel : Nat) : Prop :=
  ∀ k x items rest, ReadableItems py ((k, x) :: items) →
    2 * (printMembers py style ((k, x) :: items)).length + 1 ≤ fuel →
      parseMembers py fuel (printMembers py style ((k, x) :: items) ++ '\x7d' :: rest) =
        .ok ((k, x) :: items, rest)

theorem members_head (style : Style) (k : String) (x : Value) (items : List (String × Value)) :
    ∃ tail, printMembers py style ((k, x) :: items) = '"' :: tail := by
  cases items <;> exact ⟨_, rfl⟩

theorem readsValues_succ {fuel : Nat} (elements : ReadsElements py style fuel)
    (members : ReadsMembers py style fuel) : ReadsValues py style (fuel + 1) := by
  intro v rest readable enough stop
  cases v with
  | null => rfl
  | bool b => cases b <;> rfl
  | int n =>
    rw [print, parseValue_number py (int_numberHead n rest), parseNumber_int py readable stop]
  | float x =>
    cases x with
    | nan => rfl
    | inf negative => cases negative <;> rfl
    | fin q =>
      rw [print, floatText, parseValue_number py (float_numberHead py readable rest),
        parseNumber_float py readable stop]
  | str s =>
    rw [print, quote, List.cons_append, List.append_assoc, parseValue]
    simp only [List.cons_append, List.nil_append, parseString_quoted, ok_bind]
  | list xs =>
    cases xs with
    | nil => rfl
    | cons x xs =>
      simp only [print, List.length_cons, List.length_append] at enough
      have body := elements x xs rest readable (by omega)
      obtain ⟨c, tail, shape, space, bracket⟩ := elements_head py style readable.1 xs
      rw [print, List.cons_append, List.append_assoc, parseValue]
      rw [shape, List.cons_append] at body ⊢
      simp only [skipSpace_cons _ space, List.cons_append, List.nil_append]
      split
      · rename_i same
        exact absurd (List.cons.inj same).1 bracket
      · rw [body, ok_bind]
  | dict entries =>
    cases entries with
    | nil => rfl
    | cons item items =>
      obtain ⟨k, x⟩ := item
      simp only [print, List.length_cons, List.length_append] at enough
      have body := members k x items rest readable.2 (by omega)
      obtain ⟨tail, shape⟩ := members_head py style k x items
      rw [print, List.cons_append, List.append_assoc, parseValue]
      rw [shape, List.cons_append] at body ⊢
      simp only [skipSpace_cons _ (show isSpace '"' = false by decide), List.cons_append,
        List.nil_append]
      split
      · rename_i same
        exact absurd (List.cons.inj same).1 (by decide)
      · rw [body, ok_bind, dictOfPairs_nodup readable.1]

theorem readsElements_succ (plain : style.Plain) {fuel : Nat} (values : ReadsValues py style fuel)
    (elements : ReadsElements py style fuel) : ReadsElements py style (fuel + 1) := by
  intro x xs rest readable enough
  cases xs with
  | nil =>
    simp only [printElements] at enough
    have value := values x (']' :: rest) readable.1 (by omega) (stops_bracket _ (by simp))
    rw [printElements, parseElements, value, ok_bind]
    simp only [skipSpace_cons _ (show isSpace ']' = false by decide)]
  | cons y ys =>
    obtain ⟨space, sep, blank⟩ := plain.item
    simp only [printElements, sep, List.length_append, List.length_cons] at enough
    have value := values x (',' :: (space ++ (printElements py style (y :: ys) ++ ']' :: rest)))
      readable.1 (by omega) (stops_bracket _ (by simp))
    have later := elements y ys rest readable.2 (by omega)
    obtain ⟨c, tail, shape, notSpace, _⟩ := elements_head py style readable.2.1 ys
    have skipped : skipSpace (space ++ (printElements py style (y :: ys) ++ ']' :: rest)) =
        printElements py style (y :: ys) ++ ']' :: rest := by
      rw [skipSpace_append blank, shape, List.cons_append, skipSpace_cons _ notSpace]
    simp only [printElements, sep, List.append_assoc, List.cons_append, parseElements, value,
      ok_bind, skipSpace_cons _ (show isSpace ',' = false by decide), skipped, later]

theorem readsMembers_succ (plain : style.Plain) {fuel : Nat} (values : ReadsValues py style fuel)
    (members : ReadsMembers py style fuel) : ReadsMembers py style (fuel + 1) := by
  intro k x items rest readable enough
  obtain ⟨keySpace, keySep, keyBlank⟩ := plain.key
  obtain ⟨c, tail, shape, notSpace, _⟩ := print_valueHead py style readable.1
  have toValue : ∀ after : List Char,
      skipSpace (keySpace ++ (print py style x ++ after)) = print py style x ++ after := by
    intro after
    rw [skipSpace_append keyBlank, shape, List.cons_append, skipSpace_cons _ notSpace]
  cases items with
  | nil =>
    simp only [printMembers, quote, keySep, List.length_append, List.length_cons] at enough
    have value := values x ('\x7d' :: rest) readable.1 (by omega) (stops_bracket _ (by simp))
    simp only [printMembers, quote, keySep, List.append_assoc, List.cons_append, List.nil_append,
      parseMembers, parseString_quoted, ok_bind,
      skipSpace_cons _ (show isSpace ':' = false by decide), toValue, value,
      skipSpace_cons _ (show isSpace '\x7d' = false by decide)]
  | cons item items =>
    obtain ⟨k', x'⟩ := item
    obtain ⟨space, sep, blank⟩ := plain.item
    simp only [printMembers, quote, keySep, sep, List.length_append, List.length_cons] at enough
    have value := values x
      (',' :: (space ++ (printMembers py style ((k', x') :: items) ++ '\x7d' :: rest)))
      readable.1 (by omega) (stops_bracket _ (by simp))
    have later := members k' x' items rest readable.2 (by omega)
    have skipped : skipSpace (space ++ (printMembers py style ((k', x') :: items) ++
        '\x7d' :: rest)) = printMembers py style ((k', x') :: items) ++ '\x7d' :: rest := by
      obtain ⟨tail', shape'⟩ := members_head py style k' x' items
      rw [skipSpace_append blank, shape', List.cons_append, skipSpace_cons _ (by decide)]
    simp only [printMembers, quote, keySep, sep, List.append_assoc, List.cons_append,
      List.nil_append, parseMembers, parseString_quoted, ok_bind,
      skipSpace_cons _ (show isSpace ':' = false by decide), toValue, value,
      skipSpace_cons _ (show isSpace ',' = false by decide), skipped, later]

/-- The three scanners read what the three printers write, by induction on the fuel. -/
theorem reads (plain : style.Plain) (fuel : Nat) :
    ReadsValues py style fuel ∧ ReadsElements py style fuel ∧ ReadsMembers py style fuel := by
  induction fuel with
  | zero =>
    refine ⟨?_, ?_, ?_⟩
    · intro v rest readable enough
      obtain ⟨c, tail, shape, _⟩ := print_valueHead py style readable
      rw [shape, List.length_cons] at enough
      omega
    · intro x xs rest _ enough
      omega
    · intro k x items rest _ enough
      omega
  | succ fuel ih =>
    obtain ⟨values, elements, members⟩ := ih
    exact ⟨readsValues_succ py elements members, readsElements_succ py plain values elements,
      readsMembers_succ py plain values members⟩

theorem loads_print (plain : style.Plain) {v : Value} (readable : Readable py v) :
    loads py (print py style v) = .ok v := by
  obtain ⟨c, tail, shape, notSpace, _⟩ := print_valueHead py style readable
  have start : skipSpace (print py style v) = print py style v := by
    rw [shape, skipSpace_cons _ notSpace]
  have read := (reads py plain (2 * (print py style v).length + 2)).1 v [] readable (by omega)
    stops_nil
  rw [List.append_nil] at read
  rw [loads, start, read, ok_bind]
  rfl

end
end Py.Json
