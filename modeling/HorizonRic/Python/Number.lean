import Mathlib.Data.Rat.Floor
import Mathlib.Algebra.Order.Field.Rat
import Mathlib.Tactic.Linarith

/-!
Python numbers. Finite floats carry their exact rational value, so finite
arithmetic does not round and does not overflow; the three special values
follow IEEE 754. Comparisons are Boolean, and every comparison with NaN is
false. Errors are the exception classes the interpreter raises.
-/
namespace Py

/-- Exception classes, by name. -/
inductive PyErr where
  | typeError
  | valueError
  | overflowError
  | zeroDivisionError
  | attributeError
  | keyError
  | indexError
  | jsonDecodeError
  | validationError
  | other (name : String)
  deriving DecidableEq, Repr

def PyErr.name : PyErr → String
  | .typeError => "TypeError"
  | .valueError => "ValueError"
  | .overflowError => "OverflowError"
  | .zeroDivisionError => "ZeroDivisionError"
  | .attributeError => "AttributeError"
  | .keyError => "KeyError"
  | .indexError => "IndexError"
  | .jsonDecodeError => "JSONDecodeError"
  | .validationError => "ValidationError"
  | .other name => name

/-- A float: NaN, an infinity (`true` is the negative one), or a finite value. -/
inductive Number where
  | nan
  | inf (negative : Bool)
  | fin (q : ℚ)
  deriving DecidableEq, Repr

namespace Number

def isFinite : Number → Bool
  | .fin _ => true
  | _ => false

def isNan : Number → Bool
  | .nan => true
  | _ => false

def neg : Number → Number
  | .nan => .nan
  | .inf s => .inf (!s)
  | .fin q => .fin (-q)

def add : Number → Number → Number
  | .nan, _ => .nan
  | .inf _, .nan => .nan
  | .inf s, .inf t => if s = t then .inf s else .nan
  | .inf s, .fin _ => .inf s
  | .fin _, .nan => .nan
  | .fin _, .inf t => .inf t
  | .fin p, .fin q => .fin (p + q)

def sub (x y : Number) : Number := add x (neg y)

def mul : Number → Number → Number
  | .nan, _ => .nan
  | .inf _, .nan => .nan
  | .inf s, .inf t => .inf (s != t)
  | .inf s, .fin q => if q = 0 then .nan else .inf (s != decide (q < 0))
  | .fin _, .nan => .nan
  | .fin p, .inf t => if p = 0 then .nan else .inf (t != decide (p < 0))
  | .fin p, .fin q => .fin (p * q)

/-- Float division. A zero divisor raises, also for a NaN or infinite dividend. -/
def div (x : Number) : Number → Except PyErr Number
  | .nan => .ok .nan
  | .inf _ => .ok (if x.isFinite then .fin 0 else .nan)
  | .fin q =>
    if q = 0 then .error .zeroDivisionError
    else match x with
      | .nan => .ok .nan
      | .inf s => .ok (.inf (s != decide (q < 0)))
      | .fin p => .ok (.fin (p / q))

/-- `x / c` for a positive constant `c`. -/
def divBy (x : Number) (c : ℚ) : Number :=
  match x with
  | .fin q => .fin (q / c)
  | other => other

def lt : Number → Number → Bool
  | .nan, _ => false
  | _, .nan => false
  | .inf s, .inf t => s && !t
  | .inf s, .fin _ => s
  | .fin _, .inf t => !t
  | .fin p, .fin q => decide (p < q)

def le : Number → Number → Bool
  | .nan, _ => false
  | _, .nan => false
  | .inf s, .inf t => s || !t
  | .inf s, .fin _ => s
  | .fin _, .inf t => !t
  | .fin p, .fin q => decide (p ≤ q)

/-- `==` on floats; NaN differs from itself. -/
def eq (x y : Number) : Bool := le x y && le y x

instance : Neg Number := ⟨neg⟩
instance : Add Number := ⟨add⟩
instance : Sub Number := ⟨sub⟩
instance : Mul Number := ⟨mul⟩

/-- The builtin `min(x, y)`: the second argument wins only when it is smaller,
    so a NaN second argument is dropped and a NaN first argument is kept. -/
def min (x y : Number) : Number := if lt y x then y else x

/-- The builtin `max(x, y)`, with the same treatment of NaN. -/
def max (x y : Number) : Number := if lt x y then y else x

/-- `float.is_integer`. -/
def isInteger : Number → Bool
  | .fin q => q.den == 1
  | _ => false

/-- `int(x)`: truncation towards zero. -/
def toInt : Number → Except PyErr Int
  | .nan => .error .valueError
  | .inf _ => .error .overflowError
  | .fin q => .ok (if q < 0 then -⌊-q⌋ else ⌊q⌋)

@[simp] theorem fin_add (p q : ℚ) : fin p + fin q = fin (p + q) := rfl

@[simp] theorem neg_fin (q : ℚ) : -fin q = fin (-q) := rfl

@[simp] theorem fin_sub (p q : ℚ) : fin p - fin q = fin (p - q) := by
  change fin (p + -q) = fin (p - q)
  rw [sub_eq_add_neg]

@[simp] theorem fin_mul (p q : ℚ) : fin p * fin q = fin (p * q) := rfl

@[simp] theorem divBy_fin (q c : ℚ) : divBy (fin q) c = fin (q / c) := rfl

@[simp] theorem lt_fin (p q : ℚ) : lt (fin p) (fin q) = decide (p < q) := rfl

@[simp] theorem le_fin (p q : ℚ) : le (fin p) (fin q) = decide (p ≤ q) := rfl

theorem max_fin (p q : ℚ) : max (fin p) (fin q) = fin (Max.max p q) := by
  rw [max, lt_fin]
  split
  · rename_i less
    rw [max_eq_right (of_decide_eq_true less).le]
  · rename_i ge
    rw [max_eq_left (not_lt.mp (by simpa using ge))]

theorem min_fin (p q : ℚ) : min (fin p) (fin q) = fin (Min.min p q) := by
  rw [min, lt_fin]
  split
  · rename_i less
    rw [min_eq_right (of_decide_eq_true less).le]
  · rename_i ge
    rw [min_eq_left (not_lt.mp (by simpa using ge))]

@[simp] theorem lt_nan_right (x : Number) : lt x nan = false := by cases x <;> rfl

@[simp] theorem le_nan_right (x : Number) : le x nan = false := by cases x <;> rfl

@[simp] theorem lt_nan_left (x : Number) : lt nan x = false := rfl

@[simp] theorem le_nan_left (x : Number) : le nan x = false := rfl

theorem le_of_lt {x y : Number} (h : lt x y = true) : le x y = true := by
  cases x <;> cases y <;> simp_all [lt, le]
  exact h.le

theorem le_trans {x y z : Number} (hxy : le x y = true) (hyz : le y z = true) :
    le x z = true := by
  cases x <;> cases y <;> cases z <;> grind [le]

theorem fin_of_le {x y : Number} (h : le x y = true) (notBottom : x ≠ .inf true)
    (notTop : y ≠ .inf false) : ∃ p q, x = .fin p ∧ y = .fin q := by
  cases x <;> cases y <;> simp_all [le]

/-- A bound is met exactly when its margin over a finite value is not negative. -/
theorem zero_le_sub_fin (bound : Number) (q : ℚ) :
    le (fin 0) (bound - fin q) = le (fin q) bound := by
  cases bound with
  | nan => rfl
  | inf s => cases s <;> rfl
  | fin p => simp [sub_nonneg]

theorem zero_le_fin_sub (q : ℚ) (bound : Number) :
    le (fin 0) (fin q - bound) = le bound (fin q) := by
  cases bound with
  | nan => rfl
  | inf s => cases s <;> rfl
  | fin p => simp [sub_nonneg]

/-- A nonnegative margin, infinite bounds included. -/
theorem le_of_zero_le_sub {bound x : Number} (h : le (.fin 0) (bound - x) = true) :
    le x bound = true := by
  cases x with
  | nan =>
    cases bound <;> cases h
  | inf s =>
    cases bound with
    | nan => cases h
    | inf t => cases s <;> cases t <;> first | rfl | cases h
    | fin p => cases s <;> first | rfl | cases h
  | fin q => rwa [zero_le_sub_fin] at h

/-- A nonnegative `min` bounds its first argument, and bounds the second one
    only when that one is a number. -/
theorem zero_le_min_iff (x y : Number) :
    le (fin 0) (min x y) = true ↔
      le (fin 0) x = true ∧ (y = nan ∨ le (fin 0) y = true) := by
  unfold min
  split
  · rename_i smaller
    have notNan : y ≠ nan := by rintro rfl; simp at smaller
    constructor
    · intro h
      exact ⟨le_trans h (le_of_lt smaller), Or.inr h⟩
    · rintro ⟨_, hy | hy⟩
      · exact absurd hy notNan
      · exact hy
  · rename_i notSmaller
    constructor
    · intro h
      refine ⟨h, ?_⟩
      cases x <;> cases y <;> simp_all [lt, le]
      linarith
    · exact fun h => h.1

end Number

/-- Rounding to the nearest integer, ties to the even one: the builtin `round`. -/
def roundHalfEven (q : ℚ) : ℤ :=
  let below := ⌊q⌋
  let rest := q - below
  if rest < 1 / 2 then below
  else if 1 / 2 < rest then below + 1
  else if below % 2 = 0 then below else below + 1

theorem abs_roundHalfEven_sub_le (q : ℚ) : |(roundHalfEven q : ℚ) - q| ≤ 1 / 2 := by
  have low := Int.floor_le q
  have high := Int.lt_floor_add_one q
  rw [abs_le]
  unfold roundHalfEven
  dsimp only
  split_ifs <;> push_cast <;> constructor <;> linarith

end Py
