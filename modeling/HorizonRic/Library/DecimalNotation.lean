import Mathlib.Algebra.Order.Field.Rat
import Mathlib.Tactic.Ring

/-!
Decimal notation, with an exponent and without one. Writing a scientific number as a
fixed-point one keeps its exact value, but neither its exponent nor the sign of a zero;
a number without digits after the point is written as an integer.
-/
namespace DecimalNotation

def signed (negative : Bool) (n : Nat) : Int := if negative then -(n : Int) else n

/-- `± coefficient * 10 ^ exponent`. -/
structure Scientific where
  negative : Bool
  coefficient : Nat
  exponent : Int

/-- `unscaled / 10 ^ scale`, with `scale` digits after the point. -/
structure FixedPoint where
  unscaled : Int
  scale : Nat

def Scientific.value (s : Scientific) : ℚ := signed s.negative s.coefficient * 10 ^ s.exponent

def FixedPoint.value (f : FixedPoint) : ℚ := f.unscaled / 10 ^ f.scale

/-- Without the exponent: zeros fill up to the point, and digits after it are kept. -/
def Scientific.fixed (s : Scientific) : FixedPoint where
  unscaled := signed s.negative s.coefficient * 10 ^ s.exponent.toNat
  scale := (-s.exponent).toNat

theorem fixed_value (s : Scientific) : s.fixed.value = s.value := by
  obtain ⟨negative, coefficient, exponent⟩ := s
  rw [FixedPoint.value, Scientific.value, Scientific.fixed]
  rcases Int.le_total 0 exponent with up | down
  · obtain ⟨n, rfl⟩ := Int.eq_ofNat_of_zero_le up
    have whole : (-(n : Int)).toNat = 0 := by omega
    rw [whole, Int.toNat_natCast, zpow_natCast]
    push_cast
    ring
  · obtain ⟨n, size⟩ := Int.eq_ofNat_of_zero_le (Int.neg_nonneg_of_nonpos down)
    have whole : exponent.toNat = 0 := by omega
    have power : exponent = -(n : Int) := by omega
    rw [whole, size, Int.toNat_natCast, power, zpow_neg, zpow_natCast, pow_zero, mul_one,
      div_eq_mul_inv]

theorem fixed_scale_eq_zero (s : Scientific) : s.fixed.scale = 0 ↔ 0 ≤ s.exponent := by
  rw [Scientific.fixed, Int.toNat_eq_zero]
  omega

/-! Digits. -/

/-- The last `k` digits of `n`. -/
def lastDigits : Nat → Nat → List Char
  | 0, _ => []
  | k + 1, n => lastDigits k (n / 10) ++ [Nat.digitChar (n % 10)]

theorem length_lastDigits (k n : Nat) : (lastDigits k n).length = k := by
  induction k generalizing n with
  | zero => rfl
  | succ k ih => rw [lastDigits, List.length_append, ih, List.length_singleton]

theorem isDigit_lastDigits (k n : Nat) : ∀ c ∈ lastDigits k n, c.isDigit = true := by
  induction k generalizing n with
  | zero => exact List.forall_mem_nil _
  | succ k ih =>
    intro c member
    rcases List.mem_append.mp member with before | last
    · exact ih (n / 10) c before
    · rw [List.mem_singleton.mp last]
      simpa [Nat.isDigit_digitChar] using Nat.mod_lt n (by omega : 0 < 10)

theorem ofDigitChars_lastDigits (k n init : Nat) :
    Nat.ofDigitChars 10 (lastDigits k n) init = 10 ^ k * init + n % 10 ^ k := by
  induction k generalizing n with
  | zero => simp [lastDigits, Nat.mod_one]
  | succ k ih =>
    have small : n % 10 < 10 := Nat.mod_lt _ (by omega)
    have split : n % 10 ^ (k + 1) = 10 * (n / 10 % 10 ^ k) + n % 10 := by
      rw [Nat.pow_succ', Nat.mod_mul]
      omega
    rw [lastDigits, Nat.ofDigitChars_append, ih,
      Nat.ofDigitChars_cons_digitChar_of_lt_ten small, Nat.ofDigitChars_nil, split]
    ring

/-! The text of a fixed-point number. -/

def FixedPoint.minus (f : FixedPoint) : List Char := if f.unscaled < 0 then ['-'] else []

def FixedPoint.whole (f : FixedPoint) : List Char :=
  Nat.toDigits 10 (f.unscaled.natAbs / 10 ^ f.scale)

def FixedPoint.fraction (f : FixedPoint) : List Char := lastDigits f.scale f.unscaled.natAbs

def FixedPoint.text (f : FixedPoint) : List Char :=
  f.minus ++ (f.whole ++ if f.scale = 0 then [] else '.' :: f.fraction)

theorem ofDigitChars_text (f : FixedPoint) :
    Nat.ofDigitChars 10 (f.whole ++ f.fraction) 0 = f.unscaled.natAbs := by
  rw [Nat.ofDigitChars_append, FixedPoint.whole, Nat.ofDigitChars_ten_toDigits,
    FixedPoint.fraction, ofDigitChars_lastDigits]
  exact Nat.div_add_mod _ _

/-- The text again as a number with an exponent. -/
def FixedPoint.scientific (f : FixedPoint) : Scientific where
  negative := decide (f.unscaled < 0)
  coefficient := f.unscaled.natAbs
  exponent := -f.scale

theorem scientific_value (f : FixedPoint) : f.scientific.value = f.value := by
  have unscaled : signed (decide (f.unscaled < 0)) f.unscaled.natAbs = f.unscaled := by
    by_cases negative : f.unscaled < 0
    · simp only [signed, negative, decide_true, if_true]
      omega
    · simp only [signed, negative, decide_false, Bool.false_eq_true, if_false]
      omega
  rw [Scientific.value, FixedPoint.scientific, unscaled, FixedPoint.value, zpow_neg,
    zpow_natCast, div_eq_mul_inv]

end DecimalNotation
