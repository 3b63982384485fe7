import HorizonRic.Python.Value
import Mathlib.Data.List.Forall2

/-!
Which exception classes a computation can raise, and which items of a
dictionary a step can change: two frame conditions with their composition
rules. First what a loop over a list returns: the values that its steps return.
-/
namespace Py

theorem bind_eq_ok {x : Except PyErr α} {f : α → Except PyErr β} {b : β}
    (h : (x >>= f) = .ok b) : ∃ a, x = .ok a ∧ f a = .ok b := by
  cases x with
  | error e => cases h
  | ok a => exact ⟨a, rfl, h⟩

theorem map_eq_ok {x : Except PyErr α} {f : α → β} {b : β} (h : f <$> x = .ok b) :
    ∃ a, x = .ok a ∧ f a = b := by
  cases x with
  | error e => cases h
  | ok a =>
    cases h
    exact ⟨a, rfl, rfl⟩

theorem ok_bind (a : α) (f : α → Except PyErr β) : (Except.ok a >>= f) = f a := rfl

theorem mapM_eq_ok_iff {f : α → Except PyErr β} {xs : List α} {ys : List β} :
    xs.mapM f = .ok ys ↔ List.Forall₂ (fun x y => f x = .ok y) xs ys := by
  induction xs generalizing ys with
  | nil =>
    rw [List.forall₂_nil_left_iff]
    constructor
    · intro done
      cases done
      rfl
    · rintro rfl
      rfl
  | cons x rest ih =>
    rw [List.mapM_cons, List.forall₂_cons_left_iff]
    constructor
    · intro done
      obtain ⟨y, first, done⟩ := bind_eq_ok done
      obtain ⟨later, more, done⟩ := bind_eq_ok done
      cases done
      exact ⟨y, later, first, ih.mp more, rfl⟩
    · rintro ⟨y, later, first, more, rfl⟩
      rw [first, ih.mpr more]
      rfl

theorem mapM_eq_map {f : α → Except PyErr β} {g : α → β} {xs : List α}
    (each : ∀ x ∈ xs, f x = .ok (g x)) : xs.mapM f = .ok (xs.map g) :=
  mapM_eq_ok_iff.mpr (List.forall₂_map_right_iff.mpr (List.forall₂_same.mpr each))

theorem mapM_congr {f g : α → Except PyErr β} {xs : List α} (same : ∀ x ∈ xs, f x = g x) :
    xs.mapM f = xs.mapM g := by
  induction xs with
  | nil => rfl
  | cons x xs ih =>
    rw [List.mapM_cons, List.mapM_cons, same x List.mem_cons_self,
      ih fun y member => same y (List.mem_cons_of_mem _ member)]

theorem mapM_isOk {f : α → Except PyErr β} {xs : List α}
    (each : ∀ x ∈ xs, ∃ y, f x = .ok y) : ∃ ys, xs.mapM f = .ok ys := by
  induction xs with
  | nil => exact ⟨[], rfl⟩
  | cons x rest ih =>
    obtain ⟨y, first⟩ := each x List.mem_cons_self
    obtain ⟨later, more⟩ := ih fun x' member => each x' (List.mem_cons_of_mem x member)
    refine ⟨y :: later, ?_⟩
    rw [List.mapM_cons, first, more]
    rfl

theorem exists_of_forall₂ {R : α → β → Prop} {xs : List α} {ys : List β}
    (all : List.Forall₂ R xs ys) {x : α} (member : x ∈ xs) : ∃ y ∈ ys, R x y := by
  induction all with
  | nil => cases member
  | @cons _ y _ _ related _ ih =>
    rcases List.mem_cons.mp member with rfl | later
    · exact ⟨y, List.mem_cons_self, related⟩
    · obtain ⟨other, among, found⟩ := ih later
      exact ⟨other, List.mem_cons_of_mem y among, found⟩

theorem ok_of_mapM {f : α → Except PyErr β} {xs : List α} {ys : List β}
    (computed : xs.mapM f = .ok ys) {x : α} (member : x ∈ xs) : ∃ y, f x = .ok y := by
  obtain ⟨y, _, found⟩ := exists_of_forall₂ (mapM_eq_ok_iff.mp computed) member
  exact ⟨y, found⟩

theorem source_of_mapM {f : α → Except PyErr β} {xs : List α} {ys : List β}
    (computed : xs.mapM f = .ok ys) {y : β} (member : y ∈ ys) : ∃ x ∈ xs, f x = .ok y :=
  exists_of_forall₂ (mapM_eq_ok_iff.mp computed).flip member

def RaisesOnly (allowed : PyErr → Bool) (x : Except PyErr α) : Prop :=
  ∀ e, x = .error e → allowed e = true

namespace RaisesOnly
variable {allowed : PyErr → Bool}

theorem ok (a : α) : RaisesOnly allowed (.ok a : Except PyErr α) := by
  intro e h
  cases h

theorem error {e : PyErr} (h : allowed e = true) :
    RaisesOnly allowed (.error e : Except PyErr α) := by
  intro e' same
  cases same
  exact h

theorem bind {x : Except PyErr α} {f : α → Except PyErr β} (hx : RaisesOnly allowed x)
    (hf : ∀ a, RaisesOnly allowed (f a)) : RaisesOnly allowed (x >>= f) := by
  intro e h
  cases x with
  | error e' => exact hx e' (by cases h; rfl) ▸ (by cases h; rfl)
  | ok a => exact hf a e h

theorem ite {c : Prop} [Decidable c] {x y : Except PyErr α} (hx : RaisesOnly allowed x)
    (hy : RaisesOnly allowed y) : RaisesOnly allowed (if c then x else y) := by
  split
  · exact hx
  · exact hy

theorem cases {x : Except PyErr α} (h : RaisesOnly allowed x) :
    (∃ a, x = .ok a) ∨ ∃ e, x = .error e ∧ allowed e = true := by
  cases x with
  | error e => exact Or.inr ⟨e, rfl, h e rfl⟩
  | ok a => exact Or.inl ⟨a, rfl⟩

end RaisesOnly

/-- The classes that arithmetic and conversions raise on a malformed operand. -/
def isDataError : PyErr → Bool
  | .typeError => true
  | .valueError => true
  | .overflowError => true
  | .zeroDivisionError => true
  | _ => false

section
variable (py : Interpreter)

theorem num_toInt_raises (x : Number) : RaisesOnly isDataError x.toInt := by
  cases x with
  | nan => exact .error rfl
  | inf s => exact .error rfl
  | fin q => exact .ok _

theorem div_raises (x y : Number) : RaisesOnly isDataError (Number.div x y) := by
  cases y with
  | nan => exact .ok _
  | inf s => exact .ok _
  | fin q =>
    simp only [Number.div]
    split
    · exact .error rfl
    · cases x <;> exact .ok _

theorem mathLog10_raises (x : Number) : RaisesOnly isDataError (mathLog10 py x) := by
  cases x with
  | nan => exact .ok _
  | inf s => exact .ite (.error rfl) (.ok _)
  | fin q => exact .ite (.ok _) (.error rfl)

theorem toFloat_raises (v : Value) : RaisesOnly isDataError (v.toFloat py) := by
  cases v with
  | int n =>
    simp only [Value.toFloat]
    exact .ite (.ok _) (.error rfl)
  | str s =>
    simp only [Value.toFloat]
    split
    · exact .ok _
    · exact .error rfl
  | bool b => exact .ok _
  | float x => exact .ok _
  | _ => exact .error rfl

theorem toInt_raises (v : Value) : RaisesOnly isDataError (v.toInt py) := by
  cases v with
  | str s =>
    simp only [Value.toInt]
    split
    · exact .ok _
    · exact .error rfl
  | float x => exact num_toInt_raises x
  | bool b => exact .ok _
  | int n => exact .ok _
  | _ => exact .error rfl

theorem repr_raises (v : Value) : RaisesOnly isDataError (v.repr py) :=
  .ite (.ok _) (.error rfl)

theorem toStr_raises (v : Value) : RaisesOnly isDataError (v.toStr py) := by
  cases v with
  | str s => exact .ok _
  | _ => exact repr_raises py _

theorem intStr_raises (n : Int) : RaisesOnly isDataError (intStr n) :=
  .ite (.ok _) (.error rfl)

theorem repr_isOk_iff (v : Value) : (∃ s, v.repr py = .ok s) ↔ v.digitsOk = true := by
  unfold Value.repr
  split <;> simp_all

/-- `str` fails only on an integer that is too long, however deep it sits. -/
theorem toStr_isOk_iff (v : Value) : (∃ s, v.toStr py = .ok s) ↔ v.digitsOk = true := by
  cases v with
  | str s => simp [Value.toStr, Value.digitsOk]
  | _ => exact repr_isOk_iff py _

end

namespace Dict

/-- Items outside `keys` are the same. -/
def SameOutside (keys : List String) (before after : Dict β) : Prop :=
  ∀ key, key ∉ keys → get? key after = get? key before

theorem SameOutside.refl (keys : List String) (d : Dict β) : SameOutside keys d d :=
  fun _ _ => rfl

theorem SameOutside.trans {keys : List String} {a b c : Dict β}
    (hab : SameOutside keys a b) (hbc : SameOutside keys b c) : SameOutside keys a c := by
  intro key outside
  rw [hbc key outside, hab key outside]

theorem SameOutside.set {keys : List String} {a b : Dict β} (h : SameOutside keys a b)
    {key : String} (member : key ∈ keys) (value : β) : SameOutside keys a (b.set key value) := by
  intro other outside
  have ne : key ≠ other := by rintro rfl; exact outside member
  rw [get?_set_ne b value ne, h other outside]

theorem SameOutside.getD {keys : List String} {a b : Dict β} (h : SameOutside keys a b)
    {key : String} (outside : key ∉ keys) (default : β) :
    b.getD key default = a.getD key default := by
  rw [Dict.getD, h key outside, Dict.getD]

/-- Storing what is stored already changes nothing. -/
theorem set_of_get? {key : String} {value : β} {d : Dict β}
    (stored : get? key d = some value) : d.set key value = d := by
  induction d with
  | nil => cases stored
  | cons item rest ih =>
    obtain ⟨k, v⟩ := item
    rw [get?_cons] at stored
    rw [set]
    split at stored
    · rename_i same
      cases stored
      rw [if_pos same]
    · rename_i other
      rw [if_neg other, ih stored]

end Dict
end Py
