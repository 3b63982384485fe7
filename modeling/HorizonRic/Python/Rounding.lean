import HorizonRic.Python.Number

/-!
Float arithmetic with its rounding. The exact result is rounded to a float or, where
it overflows, to an infinity. A sum of floats is never too small for a float, so its
rounding keeps the sign; a quotient may be, and nothing of the kind is assumed of it.
-/
namespace Py

structure Rounding where
  ofSum : ℚ → Number
  ofQuotient : ℚ → Number
  sum_mono : ∀ p q, p ≤ q → Number.le (ofSum p) (ofSum q) = true
  sum_sign : ∀ q, Number.le (.fin 0) (ofSum q) = decide (0 ≤ q)
  sum_float : ∀ p q, ofSum p = .fin q → ofSum q = .fin q
  quotient_mono : ∀ p q, p ≤ q → Number.le (ofQuotient p) (ofQuotient q) = true

namespace Rounding

/-- No rounding and no overflow. -/
def exact : Rounding where
  ofSum := .fin
  ofQuotient := .fin
  sum_mono _ _ le := decide_eq_true le
  sum_sign _ := rfl
  sum_float _ _ _ := rfl
  quotient_mono _ _ le := decide_eq_true le

variable (r : Rounding)

def add : Number → Number → Number
  | .fin p, .fin q => r.ofSum (p + q)
  | x, y => x + y

def sub (x y : Number) : Number := r.add x (-y)

/-- `x / c` for a positive constant `c`. -/
def divBy (x : Number) (c : ℚ) : Number :=
  match x with
  | .fin q => r.ofQuotient (q / c)
  | other => other

/-- A number that is a float, an infinity or NaN. -/
def Represents (x : Number) : Prop := ∀ q, x = .fin q → r.ofSum q = .fin q

theorem add_exact (x y : Number) : exact.add x y = x + y := by
  cases x <;> cases y <;> rfl

theorem sub_exact (x y : Number) : exact.sub x y = x - y := add_exact x (-y)

theorem divBy_exact (x : Number) (c : ℚ) : exact.divBy x c = x.divBy c := by
  cases x <;> rfl

variable {r}

theorem ofSum_ne_nan (q : ℚ) : r.ofSum q ≠ .nan := by
  intro unknown
  have reflexive := r.sum_mono q q le_rfl
  rw [unknown] at reflexive
  cases reflexive

theorem ofQuotient_ne_nan (q : ℚ) : r.ofQuotient q ≠ .nan := by
  intro unknown
  have reflexive := r.quotient_mono q q le_rfl
  rw [unknown] at reflexive
  cases reflexive

theorem add_fin_zero {x : Number} (float : r.Represents x) : r.add x (.fin 0) = x := by
  cases x with
  | fin q =>
    rw [add, add_zero]
    exact float q rfl
  | nan | inf _ => rfl

theorem sub_fin_zero {x : Number} (float : r.Represents x) : r.sub x (.fin 0) = x := by
  rw [sub, Number.neg_fin, neg_zero]
  exact add_fin_zero float

/-- A bound is met exactly when its rounded margin is not negative. -/
theorem zero_le_sub_fin (bound : Number) (q : ℚ) :
    Number.le (.fin 0) (r.sub bound (.fin q)) = Number.le (.fin q) bound := by
  cases bound with
  | nan => rfl
  | inf s => cases s <;> rfl
  | fin p =>
    rw [sub, Number.neg_fin, add, r.sum_sign, Number.le_fin, ← sub_eq_add_neg]
    simp only [sub_nonneg]

theorem zero_le_fin_sub (q : ℚ) (bound : Number) :
    Number.le (.fin 0) (r.sub (.fin q) bound) = Number.le bound (.fin q) := by
  cases bound with
  | nan => rfl
  | inf s => cases s <;> rfl
  | fin p =>
    rw [sub, Number.neg_fin, add, r.sum_sign, Number.le_fin, ← sub_eq_add_neg]
    simp only [sub_nonneg]

theorem fin_add_ne_nan (q : ℚ) {x : Number} (known : x ≠ .nan) : r.add (.fin q) x ≠ .nan := by
  cases x with
  | nan => exact absurd rfl known
  | inf s => exact fun impossible => nomatch impossible
  | fin p => exact ofSum_ne_nan _

theorem fin_sub_ne_nan (q : ℚ) {x : Number} (known : x ≠ .nan) : r.sub (.fin q) x ≠ .nan := by
  refine fin_add_ne_nan q ?_
  cases x with
  | nan => exact absurd rfl known
  | inf s => exact fun impossible => nomatch impossible
  | fin p => exact fun impossible => nomatch impossible

theorem divBy_ne_nan {x : Number} (known : x ≠ .nan) (c : ℚ) : r.divBy x c ≠ .nan := by
  cases x with
  | nan => exact absurd rfl known
  | inf s => exact fun impossible => nomatch impossible
  | fin p => exact ofQuotient_ne_nan _

theorem inf_true_le {x : Number} (known : x ≠ .nan) : Number.le (.inf true) x = true := by
  cases x with
  | nan => exact absurd rfl known
  | inf s => cases s <;> rfl
  | fin q => rfl

theorem le_inf_false {x : Number} (known : x ≠ .nan) : Number.le x (.inf false) = true := by
  cases x with
  | nan => exact absurd rfl known
  | inf s => cases s <;> rfl
  | fin q => rfl

theorem divBy_mono {c : ℚ} (positive : 0 < c) {x y : Number} (le : Number.le x y = true) :
    Number.le (r.divBy x c) (r.divBy y c) = true := by
  cases x with
  | nan => cases le
  | inf s =>
    cases y with
    | nan => cases s <;> cases le
    | inf t => exact le
    | fin q =>
      cases s with
      | true => exact inf_true_le (ofQuotient_ne_nan _)
      | false => cases le
  | fin p =>
    cases y with
    | nan => cases le
    | inf t =>
      cases t with
      | true => cases le
      | false => exact le_inf_false (ofQuotient_ne_nan _)
    | fin q => exact r.quotient_mono _ _ (div_le_div_of_nonneg_right (of_decide_eq_true le) positive.le)

theorem fin_sub_anti (p : ℚ) {x y : Number} (le : Number.le x y = true) :
    Number.le (r.sub (.fin p) y) (r.sub (.fin p) x) = true := by
  cases x with
  | nan => cases le
  | inf s =>
    cases y with
    | nan => cases s <;> cases le
    | inf t => cases s <;> cases t <;> first | rfl | cases le
    | fin q =>
      cases s with
      | true => exact le_inf_false (fin_sub_ne_nan p fun impossible => nomatch impossible)
      | false => cases le
  | fin a =>
    cases y with
    | nan => cases le
    | inf t =>
      cases t with
      | true => cases le
      | false => exact inf_true_le (fin_sub_ne_nan p fun impossible => nomatch impossible)
    | fin b =>
      have smaller : p + -b ≤ p + -a := by linarith [of_decide_eq_true le]
      exact r.sum_mono _ _ smaller

end Rounding
end Py
