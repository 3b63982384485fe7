import HorizonRic.Python.Value

/-!
`==` on JSON-shaped values. Numbers compare across types by their exact value;
an object is equal to itself before its content is looked at, so a NaN that is
carried over is.
-/
namespace Py

namespace Value

/-- The integer a value is, a flag included. -/
def integer : Value → Option Int
  | .bool b => some (if b then 1 else 0)
  | .int n => some n
  | _ => none

/-- No float is as large as the integers that `float` refuses. -/
def floatIs (x : Number) (n : Int) : Bool :=
  decide (n.natAbs < floatOverflow) && decide (x = .fin n)

mutual
def eq : Value → Value → Bool
  | .null, .null => true
  | .str s, .str t => s == t
  | .list xs, .list ys => eqList xs ys
  | .dict d, .dict e => eqItems d e && e.all (fun item => Dict.has d item.1)
  | .float x, .float y => decide (x = y)
  | .float x, w => match w.integer with
    | some n => floatIs x n
    | none => false
  | v, .float y => match v.integer with
    | some n => floatIs y n
    | none => false
  | .bool b, w => w.integer == some (if b then 1 else 0)
  | .int n, w => w.integer == some n
  | _, _ => false

def eqList : List Value → List Value → Bool
  | [], [] => true
  | x :: xs, y :: ys => eq x y && eqList xs ys
  | _, _ => false

def eqItems : List (String × Value) → List (String × Value) → Bool
  | [], _ => true
  | (key, x) :: rest, e => (match Dict.get? key e with
    | some y => eq x y
    | none => false) && eqItems rest e
end

theorem eq_str {s : String} {w : Value} (h : eq (.str s) w = true) : w = .str s := by
  cases w with
  | str t =>
    simp only [eq, beq_iff_eq] at h
    rw [h]
  | _ => cases h

theorem eqList_texts {texts : List String} {ys : List Value}
    (h : eqList (texts.map .str) ys = true) : ys = texts.map .str := by
  induction texts generalizing ys with
  | nil =>
    cases ys with
    | nil => rfl
    | cons y ys => cases h
  | cons text rest ih =>
    cases ys with
    | nil => cases h
    | cons y ys =>
      obtain ⟨head, tail⟩ := (Bool.and_eq_true _ _).mp h
      rw [eq_str head, ih tail]
      rfl

theorem eq_texts {texts : List String} {w : Value} (h : eq (.list (texts.map .str)) w = true) :
    w = .list (texts.map .str) := by
  cases w with
  | list ys => rw [eqList_texts h]
  | _ => cases h

end Value

/-- `a == b` on dictionaries: the same keys, under each the same object or an equal one. -/
def Dict.Equal (a b : Dict Value) : Prop :=
  ∀ key, Dict.get? key a = Dict.get? key b ∨
    ∃ v w, Dict.get? key a = some v ∧ Dict.get? key b = some w ∧ v.eq w = true

theorem Dict.Equal.refl (a : Dict Value) : a.Equal a := fun _ => Or.inl rfl

end Py
