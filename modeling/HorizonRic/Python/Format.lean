import HorizonRic.Python.Value
import Mathlib.Data.Nat.Log
import Mathlib.Algebra.Order.Field.Power

/-!
Format specifications of numbers: `.nf`, `.n%` and `.ng`. A finite value is
rounded from its exact rational, ties to even, as the interpreter does.
-/
namespace Py

/-- Decimal text of `n`, with zeros on the left up to `width` characters. -/
def zeroPad (width n : Nat) : String :=
  let text := toString n
  String.ofList (List.replicate (width - text.length) '0') ++ text

/-- The text of a special value; `none` for a finite one. -/
def specialText : Number → Option String
  | .nan => some "nan"
  | .inf negative => some (if negative then "-inf" else "inf")
  | .fin _ => none

def fixedText (digits : Nat) (q : ℚ) : String :=
  let scaled := (roundHalfEven (|q| * 10 ^ digits)).toNat
  let sign := if q < 0 then "-" else ""
  if digits = 0 then sign ++ toString scaled
  else sign ++ toString (scaled / 10 ^ digits) ++ "." ++ zeroPad digits (scaled % 10 ^ digits)

/-- `format(x, '.nf')`. -/
def fmtFixed (digits : Nat) (x : Number) : String :=
  match x with
  | .fin q => fixedText digits q
  | other => (specialText other).getD ""

/-- `format(x, '.n%')`. -/
def fmtPercent (digits : Nat) (x : Number) : String := fmtFixed digits (x * .fin 100) ++ "%"

/-- The exponent of the leading decimal digit of a positive number. -/
def decimalExponent (q : ℚ) : ℤ :=
  let guess : ℤ := (Nat.log 10 q.num.toNat : ℤ) - (Nat.log 10 q.den : ℤ)
  if q < (10 : ℚ) ^ guess then guess - 1 else guess

def stripZeros (text : String) : String :=
  String.ofList ((text.toList.reverse.dropWhile (· = '0')).dropWhile (· = '.')).reverse

/-- A mantissa of `precision` digits with the point after the first one. -/
def mantissaText (precision mantissa : Nat) : String :=
  if precision ≤ 1 then toString mantissa
  else
    let scale := 10 ^ (precision - 1)
    stripZeros (toString (mantissa / scale) ++ "." ++ zeroPad (precision - 1) (mantissa % scale))

def exponentText (e : ℤ) : String :=
  "e" ++ (if e < 0 then "-" else "+") ++ zeroPad 2 e.natAbs

def generalText (precision : Nat) (q : ℚ) : String :=
  if q = 0 then "0"
  else
    let sign := if q < 0 then "-" else ""
    let first := decimalExponent |q|
    let rounded :=
      (roundHalfEven (|q| / (10 : ℚ) ^ (first - (precision - 1 : ℤ)))).toNat
    -- rounding up 9.99.. gives one digit more
    let carried := rounded = 10 ^ precision
    let e := if carried then first + 1 else first
    let mantissa := if carried then 10 ^ (precision - 1) else rounded
    if e < -4 ∨ (precision : ℤ) ≤ e then
      sign ++ mantissaText precision mantissa ++ exponentText e
    else
      let decimals := ((precision : ℤ) - 1 - e).toNat
      let text := fixedText decimals |q|
      sign ++ (if decimals = 0 then text else stripZeros text)

/-- `format(x, '.ng')`. -/
def fmtGeneral (precision : Nat) (x : Number) : String :=
  match x with
  | .fin q => generalText precision q
  | other => (specialText other).getD ""

end Py
