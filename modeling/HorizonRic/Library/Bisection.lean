import Mathlib.Algebra.Order.Archimedean.Basic
import Mathlib.Tactic.FieldSimp
import Mathlib.Tactic.Linarith

/-!
Loops without a bound of their own, run with fuel, and bisection. A rank that falls
in every iteration is fuel enough. A bracket keeps a point above the threshold
on its left and one not above it on its right.
-/
namespace Bisection

section
variable {σ ε : Type*}

/-- `while test: body`; nothing is returned when the fuel is used up. -/
def whileLoop (test : σ → Except ε Bool) (body : σ → Except ε σ) : ℕ → σ → Option (Except ε σ)
  | 0, _ => none
  | fuel + 1, s =>
    match test s with
    | .error e => some (.error e)
    | .ok false => some (.ok s)
    | .ok true =>
      match body s with
      | .error e => some (.error e)
      | .ok next => whileLoop test body fuel next

variable {test : σ → Except ε Bool} {body : σ → Except ε σ}

theorem whileLoop_exit {s : σ} (exit : test s = .ok false) (fuel : ℕ) :
    whileLoop test body (fuel + 1) s = some (.ok s) := by
  rw [whileLoop, exit]

theorem whileLoop_raise {s : σ} {e : ε} (enter : test s = .ok true) (raised : body s = .error e)
    (fuel : ℕ) : whileLoop test body (fuel + 1) s = some (.error e) := by
  rw [whileLoop, enter, raised]

theorem whileLoop_next {s next : σ} (enter : test s = .ok true) (step : body s = .ok next)
    (fuel : ℕ) : whileLoop test body (fuel + 1) s = whileLoop test body fuel next := by
  rw [whileLoop, enter, step]

/-- What an iteration does at a state of the given rank: it leaves the loop, raises,
    or goes on at a lower rank. -/
inductive Iterates (test : σ → Except ε Bool) (body : σ → Except ε σ) (Inv : ℕ → σ → Prop)
    (Post : Except ε σ → Prop) (rank : ℕ) (s : σ) : Prop
  | leaves (exit : test s = .ok false) (post : Post (.ok s))
  | raises (e : ε) (enter : test s = .ok true) (raised : body s = .error e) (post : Post (.error e))
  | goesOn (next : σ) (lower : ℕ) (enter : test s = .ok true) (step : body s = .ok next)
      (less : lower < rank) (inv : Inv lower next)

/-- Total correctness: more fuel than the rank gives a result, and always the same one. -/
theorem whileLoop_total (Inv : ℕ → σ → Prop) {Post : Except ε σ → Prop}
    (iterates : ∀ rank s, Inv rank s → Iterates test body Inv Post rank s) {rank : ℕ} {s : σ}
    (inv : Inv rank s) :
    ∃ result, Post result ∧ ∀ fuel, rank < fuel → whileLoop test body fuel s = some result := by
  induction rank using Nat.strongRecOn generalizing s with
  | ind rank ih =>
    have enough : ∀ fuel, rank < fuel → ∃ more, fuel = more + 1 ∧ rank ≤ more := by
      intro fuel less
      exact ⟨fuel - 1, by omega, by omega⟩
    rcases iterates rank s inv with ⟨exit, post⟩ | ⟨e, enter, raised, post⟩ |
      ⟨next, lower, enter, step, less, inv⟩
    · refine ⟨.ok s, post, fun fuel less => ?_⟩
      obtain ⟨more, rfl, _⟩ := enough fuel less
      exact whileLoop_exit exit more
    · refine ⟨.error e, post, fun fuel less => ?_⟩
      obtain ⟨more, rfl, _⟩ := enough fuel less
      exact whileLoop_raise enter raised more
    · obtain ⟨result, post, same⟩ := ih lower less inv
      refine ⟨result, post, fun fuel bound => ?_⟩
      obtain ⟨more, rfl, left⟩ := enough fuel bound
      rw [whileLoop_next enter step]
      exact same more (by omega)

end

/-! Brackets. -/

section
variable {K : Type*} [Field K]

structure Bracket (K : Type*) where
  lo : K
  hi : K

namespace Bracket

def mid (b : Bracket K) : K := (b.lo + b.hi) / ((2 : ℕ) : K)

def width (b : Bracket K) : K := b.hi - b.lo

/-- The half to go on with. -/
def halve (b : Bracket K) (above : Bool) : Bracket K :=
  if above then { b with lo := b.mid } else { b with hi := b.mid }

variable [LinearOrder K] [IsStrictOrderedRing K]

theorem width_halve (b : Bracket K) (above : Bool) :
    (b.halve above).width = b.width / ((2 : ℕ) : K) := by
  have two : ((2 : ℕ) : K) ≠ 0 := by norm_num
  cases above
  · simp only [halve, Bool.false_eq_true, if_false, width, mid]
    field_simp
    push_cast
    ring
  · simp only [halve, if_true, width, mid]
    field_simp
    push_cast
    ring

theorem lo_lt_mid {b : Bracket K} (ordered : b.lo < b.hi) : b.lo < b.mid := by
  rw [mid, lt_div_iff₀ (by norm_num)]
  push_cast
  linarith

theorem mid_lt_hi {b : Bracket K} (ordered : b.lo < b.hi) : b.mid < b.hi := by
  rw [mid, div_lt_iff₀ (by norm_num)]
  push_cast
  linarith

end Bracket

variable [LinearOrder K] [IsStrictOrderedRing K]

/-- What bisection keeps: a left end above the threshold, if the first one was, and a right
    end that is not. -/
structure Brackets (above : K → Prop) (first : K) (b : Bracket K) : Prop where
  ordered : b.lo < b.hi
  fromFirst : first ≤ b.lo
  left : above first → above b.lo
  right : ¬above b.hi

variable {above : K → Prop} {first : K} {b : Bracket K}

theorem Brackets.first_lt_mid (inside : Brackets above first b) : first < b.mid :=
  inside.fromFirst.trans_lt (Bracket.lo_lt_mid inside.ordered)

theorem Brackets.halve (inside : Brackets above first b) {side : Bool}
    (decided : side = true ↔ above b.mid) : Brackets above first (b.halve side) := by
  cases side with
  | true =>
    exact ⟨Bracket.mid_lt_hi inside.ordered, inside.first_lt_mid.le, fun _ => decided.mp rfl,
      inside.right⟩
  | false =>
    have notAbove : ¬above b.mid := fun h => Bool.false_ne_true (decided.mpr h)
    exact ⟨Bracket.lo_lt_mid inside.ordered, inside.fromFirst, inside.left, notAbove⟩

omit [IsStrictOrderedRing K] in
/-- Above the threshold left of the bracket, where everything left of a point above is above. -/
theorem Brackets.above_of_le (inside : Brackets above first b) (start : above first)
    (down : ∀ x y, 0 < x → x ≤ y → above y → above x) {x : K} (positive : 0 < x)
    (outside : x ≤ b.lo) : above x :=
  down x b.lo positive outside (inside.left start)

/-- Every width is a tolerance times a power of two. -/
theorem exists_width_le [Archimedean K] {tol : K} (positive : 0 < tol) (width : K) :
    ∃ rank : ℕ, width ≤ tol * ((2 : ℕ) : K) ^ rank := by
  obtain ⟨rank, large⟩ := pow_unbounded_of_one_lt (width / tol)
    (show (1 : K) < ((2 : ℕ) : K) by norm_num)
  refine ⟨rank, ?_⟩
  rw [mul_comm]
  exact ((div_lt_iff₀ positive).mp large).le

theorem width_halve_le {tol : K} {rank : ℕ} (bound : b.width ≤ tol * ((2 : ℕ) : K) ^ (rank + 1))
    (side : Bool) : (b.halve side).width ≤ tol * ((2 : ℕ) : K) ^ rank := by
  rw [Bracket.width_halve, div_le_iff₀ (by norm_num)]
  calc b.width ≤ tol * ((2 : ℕ) : K) ^ (rank + 1) := bound
    _ = tol * ((2 : ℕ) : K) ^ rank * ((2 : ℕ) : K) := by ring

end
end Bisection
