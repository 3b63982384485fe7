import Mathlib.Data.List.Forall2

/-!
Two runs of fallible programs side by side: they end alike, in related values or
in the same exception. The rules follow the structure of the programs.
-/

/-- Both programs return related values, or both raise the same exception. -/
inductive BothRuns {ε α β : Type} (R : α → β → Prop) : Except ε α → Except ε β → Prop where
  | ok {a : α} {b : β} (related : R a b) : BothRuns R (.ok a) (.ok b)
  | error (e : ε) : BothRuns R (.error e) (.error e)

namespace BothRuns
variable {ε α β γ δ : Type}

theorem of_eq {x y : Except ε α} (same : x = y) : BothRuns Eq x y := by
  subst same
  cases x with
  | error e => exact .error e
  | ok a => exact .ok rfl

theorem mono {R S : α → β → Prop} {x : Except ε α} {y : Except ε β} (h : BothRuns R x y)
    (weaker : ∀ a b, R a b → S a b) : BothRuns S x y := by
  cases h with
  | ok related => exact .ok (weaker _ _ related)
  | error e => exact .error e

theorem bind {R : α → β → Prop} {S : γ → δ → Prop} {x : Except ε α} {y : Except ε β}
    {f : α → Except ε γ} {g : β → Except ε δ} (first : BothRuns R x y)
    (next : ∀ a b, R a b → BothRuns S (f a) (g b)) : BothRuns S (x >>= f) (y >>= g) := by
  cases first with
  | ok related => exact next _ _ related
  | error e => exact .error e

/-- A test that comes out alike in both runs. -/
theorem ite {R : α → β → Prop} {c d : Bool} {x x' : Except ε α} {y y' : Except ε β}
    (same : c = d) (yes : BothRuns R x y) (no : BothRuns R x' y') :
    BothRuns R (if c then x else x') (if d then y else y') := by
  subst same
  cases c with
  | true => exact yes
  | false => exact no

end BothRuns
