import HorizonRic.Python.JsonRoundTrip
import HorizonRic.Library.DecimalNotation

/-!
The exact value of a JSON number text, and the text without an exponent that has
the same value.
-/
namespace Py.Json

open DecimalNotation

/-- A number text with a fraction or an exponent. -/
def FloatToken (cs : List Char) : Prop :=
  ∃ minus whole fraction exponent, cs = minus ++ (whole ++ (fraction ++ exponent)) ∧
    (minus = [] ∨ minus = ['-']) ∧ WholeDigits whole ∧ FractionText fraction ∧
    ExponentText exponent ∧ fraction ++ exponent ≠ []

def exponentOf : List Char → Int
  | _ :: rest =>
    signed (decide ((scanSign rest).1 = ['-'])) (Nat.ofDigitChars 10 (scanSign rest).2 0)
  | [] => 0

/-- The number that a token writes. -/
def tokenDecimal (cs : List Char) : Scientific :=
  let (minus, cs) := scanMinus cs
  match scanWhole cs with
  | none => ⟨false, 0, 0⟩
  | some (whole, cs) =>
    let (fraction, cs) := scanFraction cs
    let (exponent, _) := scanExponent cs
    ⟨decide (minus = ['-']), Nat.ofDigitChars 10 (whole ++ fraction.tail) 0,
      exponentOf exponent - fraction.tail.length⟩

theorem tokenDecimal_append {minus whole fraction exponent : List Char}
    (hm : minus = [] ∨ minus = ['-']) (hw : WholeDigits whole) (hf : FractionText fraction)
    (he : ExponentText exponent) :
    tokenDecimal (minus ++ (whole ++ (fraction ++ exponent))) =
      ⟨decide (minus = ['-']), Nat.ofDigitChars 10 (whole ++ fraction.tail) 0,
        exponentOf exponent - fraction.tail.length⟩ := by
  obtain ⟨c, tail, head, digit⟩ := wholeDigits_head hw
  have sign : scanMinus (minus ++ (whole ++ (fraction ++ exponent))) =
      (minus, whole ++ (fraction ++ exponent)) := by
    rw [head, List.cons_append]
    exact scanMinus_append hm digit
  have digits : scanWhole (whole ++ (fraction ++ exponent)) = some (whole, fraction ++ exponent) := by
    apply scanWhole_append hw
    intro d more same
    rw [← List.append_nil exponent] at same
    exact fraction_exponent_head hf he stops_nil d more same
  have point : scanFraction (fraction ++ exponent) = (fraction, exponent) := by
    apply scanFraction_append hf
    intro d more same
    rw [← List.append_nil exponent] at same
    exact exponent_head he stops_nil d more same
  have power : scanExponent exponent = (exponent, []) := by
    have scanned := scanExponent_append he stops_nil
    rwa [List.append_nil] at scanned
  simp only [tokenDecimal, sign, digits, point, power]

theorem exponentOf_nil : exponentOf [] = 0 := rfl

/-! The text of a fixed-point number. -/

theorem minus_sign (f : FixedPoint) : f.minus = [] ∨ f.minus = ['-'] := by
  unfold FixedPoint.minus
  split
  · exact Or.inr rfl
  · exact Or.inl rfl

theorem fraction_text {f : FixedPoint} (scaled : f.scale ≠ 0) :
    FractionText ('.' :: f.fraction) := by
  have length := length_lastDigits f.scale f.unscaled.natAbs
  have digits := isDigit_lastDigits f.scale f.unscaled.natAbs
  cases form : f.fraction with
  | nil =>
    rw [← FixedPoint.fraction, form] at length
    exact absurd length.symm scaled
  | cons c tail =>
    rw [← FixedPoint.fraction, form] at digits
    exact Or.inr ⟨c, tail, rfl, digits⟩

theorem fixed_token {f : FixedPoint} (scaled : f.scale ≠ 0) :
    FloatToken f.text ∧ tokenDecimal f.text = f.scientific := by
  have form : f.text = f.minus ++ (f.whole ++ ('.' :: f.fraction ++ [])) := by
    rw [FixedPoint.text, if_neg scaled, List.append_nil]
  have whole : WholeDigits f.whole := wholeDigits_toDigits _
  have fraction := fraction_text scaled
  have sign : decide (f.minus = ['-']) = decide (f.unscaled < 0) := by
    by_cases negative : f.unscaled < 0
    · simp [FixedPoint.minus, negative]
    · simp [FixedPoint.minus, negative]
  refine ⟨⟨f.minus, f.whole, '.' :: f.fraction, [], form, minus_sign f, whole, fraction,
    Or.inl rfl, List.cons_ne_nil _ _⟩, ?_⟩
  rw [form, tokenDecimal_append (minus_sign f) whole fraction (Or.inl rfl), List.tail_cons,
    ofDigitChars_text, sign, FixedPoint.fraction, length_lastDigits, exponentOf_nil, Int.zero_sub]
  rfl

end Py.Json
