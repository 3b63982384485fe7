import HorizonRic.Python.BigEndian
import Mathlib.Data.Int.Log
import Mathlib.Data.List.Sort

/-!
Float64 arrays of numpy. How results are rounded and in which order a reduction adds is left
open; a float is the number it stands for, so the zeros are one.
-/
namespace Py

structure Float64 where
  /-- The float of an exact result; infinite where that overflows. -/
  round : Number → Number
  sqrt : Number → Number
  sum : List Number → Number
  bytes : Number → Bytes
  round_zero : round (.fin 0) = .fin 0
  round_nan : round .nan = .nan
  sqrt_zero : sqrt (.fin 0) = .fin 0
  sqrt_nan : sqrt .nan = .nan
  sum_zeros : ∀ xs : List Number, (∀ x ∈ xs, x = .fin 0) → sum xs = .fin 0
  sum_nan : ∀ xs : List Number, .nan ∈ xs → sum xs = .nan

namespace Float64
variable (np : Float64)

def add (x y : Number) : Number := np.round (x + y)

def sub (x y : Number) : Number := np.round (x - y)

def mul (x y : Number) : Number := np.round (x * y)

def mean (xs : List Number) : Number :=
  if xs = [] then .nan else np.round ((np.sum xs).divBy xs.length)

/-- One step of `np.max`: a NaN stays. -/
def larger (x y : Number) : Number := if x.isNan || Number.le y x then x else y

def max : List Number → Except PyErr Number
  | [] => .error .valueError
  | x :: rest => .ok (rest.foldl larger x)

/-- `np.sort`: NaN last. -/
def sort (xs : List Number) : List Number := xs.insertionSort fun x y => Number.le x y || y.isNan

def median (xs : List Number) : Number :=
  let sorted := sort xs
  if sorted.any Number.isNan then .nan
  else if xs.length % 2 = 1 then np.mean ((sorted.drop (xs.length / 2)).take 1)
  else np.mean ((sorted.drop (xs.length / 2 - 1)).take 2)

/-- The first NaN, or else the first least entry. -/
def argmin (xs : List Number) : ℕ := xs.findIdx fun x => x.isNan || xs.all (Number.le x)

/-- `np.linalg.norm` of a vector. -/
def norm (v : List Number) : Number := np.sqrt (np.sum (v.map fun x => np.mul x x))

theorem sub_self_fin (q : ℚ) : np.sub (.fin q) (.fin q) = .fin 0 := by
  rw [sub, Number.fin_sub, sub_self, np.round_zero]

theorem sub_self_nan {x : Number} (infinite : x.isFinite = false) : np.sub x x = .nan := by
  have invalid : x - x = .nan := by
    cases x with
    | nan => rfl
    | inf negative => cases negative <;> rfl
    | fin q => cases infinite
  rw [sub, invalid, np.round_nan]

/-- The distance of a vector to itself: zero, unless an infinity or a NaN is in it. -/
theorem norm_sub_self (v : List Number) :
    np.norm (List.zipWith np.sub v v) = if v.all Number.isFinite then .fin 0 else .nan := by
  rw [norm, List.zipWith_self, List.map_map]
  split
  · rename_i finite
    have zeros : ∀ x ∈ v.map ((fun x => np.mul x x) ∘ fun x => np.sub x x), x = .fin 0 := by
      intro x member
      obtain ⟨y, inside, rfl⟩ := List.mem_map.mp member
      cases y with
      | nan => cases List.all_eq_true.mp finite _ inside
      | inf negative => cases List.all_eq_true.mp finite _ inside
      | fin q =>
        dsimp only [Function.comp]
        rw [sub_self_fin, mul, Number.fin_mul, mul_zero, np.round_zero]
    rw [np.sum_zeros _ zeros, np.sqrt_zero]
  · rename_i infinite
    obtain ⟨y, inside, bad⟩ : ∃ y ∈ v, y.isFinite = false := by simpa using infinite
    have invalid : .nan ∈ v.map ((fun x => np.mul x x) ∘ fun x => np.sub x x) := by
      refine List.mem_map.mpr ⟨y, inside, ?_⟩
      dsimp only [Function.comp]
      rw [np.sub_self_nan bad, mul]
      exact np.round_nan
    rw [np.sum_nan _ invalid, np.sqrt_nan]

end Float64

/-! Exact arithmetic. -/

/-- The layout of binary64; below the last digit the value is cut. -/
def binary64 : Number → ℕ
  | .nan => 2047 * 2 ^ 52 + 2 ^ 51
  | .inf negative => 2047 * 2 ^ 52 + if negative then 2 ^ 63 else 0
  | .fin q =>
    let exponent := Max.max (Int.log 2 |q|) (-1022)
    let significand := ⌊|q| / 2 ^ (exponent - 52)⌋.toNat
    if q = 0 then 0
    else (exponent + 1022).toNat * 2 ^ 52 + significand + if q < 0 then 2 ^ 63 else 0

/-- The square root of a square; below the common denominator the value is cut. -/
def exactSqrt : Number → Number
  | .nan => .nan
  | .inf negative => if negative then .nan else .inf false
  | .fin q => if q < 0 then .nan else .fin (mkRat (Nat.sqrt (q.num.toNat * q.den)) q.den)

/-- Nothing is rounded, and sums run from the left. -/
def exactFloat64 : Float64 where
  round := id
  sqrt := exactSqrt
  sum xs := xs.foldl (· + ·) (.fin 0)
  bytes x := (intToBytes 8 (binary64 x)).reverse
  round_zero := rfl
  round_nan := rfl
  sqrt_zero := by decide
  sqrt_nan := rfl
  sum_zeros xs zeros := by
    induction xs with
    | nil => rfl
    | cons x rest ih =>
      rw [List.foldl_cons, zeros x List.mem_cons_self, Number.fin_add, add_zero]
      exact ih fun y member => zeros y (List.mem_cons_of_mem _ member)
  sum_nan xs invalid := by
    have kept : ∀ ys : List Number, ys.foldl (· + ·) Number.nan = .nan := by
      intro ys
      induction ys with
      | nil => rfl
      | cons y ys ih => exact ih
    have right : ∀ x : Number, x + .nan = .nan := by
      intro x
      cases x <;> rfl
    have any : ∀ start : Number, xs.foldl (· + ·) start = .nan := by
      induction xs with
      | nil => cases invalid
      | cons x rest ih =>
        intro start
        rw [List.foldl_cons]
        rcases List.mem_cons.mp invalid with rfl | later
        · rw [right, kept]
        · exact ih later _
    exact any _

/-! On finite numbers these are the operations of the rationals. -/

theorem exact_sum (xs : List ℚ) : exactFloat64.sum (xs.map Number.fin) = .fin xs.sum := by
  have from_ : ∀ start : ℚ, (xs.map Number.fin).foldl (· + ·) (.fin start) = .fin (start + xs.sum) := by
    induction xs with
    | nil =>
      intro start
      rw [List.sum_nil, add_zero]
      rfl
    | cons x rest ih =>
      intro start
      rw [List.map_cons, List.foldl_cons, Number.fin_add, ih, List.sum_cons, add_assoc]
  exact (from_ 0).trans (congrArg Number.fin (zero_add _))

theorem sort_fin (xs : List ℚ) :
    Float64.sort (xs.map Number.fin) = (xs.insertionSort (· ≤ ·)).map Number.fin := by
  symm
  apply List.map_insertionSort
  intro a _ b _
  simp [Number.isNan]

theorem argmin_fin (xs : List ℚ) : Float64.argmin (xs.map Number.fin) =
    xs.findIdx fun x => xs.all fun other => x ≤ other := by
  have least : ∀ x : ℚ, ((Number.fin x).isNan || (xs.map Number.fin).all (Number.le (.fin x))) =
      xs.all fun other => x ≤ other := by
    intro x
    rw [List.all_map]
    rfl
  rw [Float64.argmin, List.findIdx_map]
  exact congrArg (fun p => xs.findIdx p) (funext least)

example : exactFloat64.median [.fin 3, .fin 1, .fin 2, .fin 6] = .fin (5 / 2) := by decide +kernel

example : binary64 (.fin (-5 / 2)) = 0xC004000000000000 := by decide +kernel

end Py
