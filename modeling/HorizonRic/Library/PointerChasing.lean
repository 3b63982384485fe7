import Mathlib.Data.Fintype.Card
import Mathlib.Data.List.Chain
import Mathlib.Data.List.Nodup
import Mathlib.Logic.Relation

/-!
Following pointers until there is none. Where no item leads back to itself and finitely
many can be reached, the walk ends; two walks that start alike and follow pointers that
agree have met the same items when the shorter one ends.
-/
namespace PointerChasing

variable {α β : Type*}

/-- The items met from `a`, it first; none when the fuel runs out. -/
def chase (next : α → Option α) : ℕ → α → Option (List α)
  | 0, _ => none
  | fuel + 1, a =>
    match next a with
    | none => some [a]
    | some b => (chase next fuel b).map (a :: ·)

variable {next : α → Option α}

theorem chase_end {a : α} (stop : next a = none) (fuel : ℕ) :
    chase next (fuel + 1) a = some [a] := by
  rw [chase, stop]

theorem chase_step {a b : α} (found : next a = some b) (fuel : ℕ) :
    chase next (fuel + 1) a = (chase next fuel b).map (a :: ·) := by
  rw [chase, found]

/-- More fuel makes no difference. -/
theorem chase_more {fuel more : ℕ} {a : α} {met : List α} (chased : chase next fuel a = some met)
    (enough : fuel ≤ more) : chase next more a = some met := by
  induction fuel generalizing more a met with
  | zero => cases chased
  | succ fuel ih =>
    obtain ⟨more, rfl⟩ : ∃ m, more = m + 1 := ⟨more - 1, by omega⟩
    cases found : next a with
    | none =>
      rw [chase_end found] at chased ⊢
      exact chased
    | some b =>
      rw [chase_step found] at chased ⊢
      obtain ⟨rest, later, rfl⟩ := Option.map_eq_some_iff.mp chased
      rw [ih later (by omega)]
      rfl

/-- Each item points to the one after it, and the last one nowhere. -/
theorem chase_linked {fuel : ℕ} {a : α} {met : List α} (chased : chase next fuel a = some met) :
    met.head? = some a ∧ met.IsChain (fun x y => next x = some y) ∧
      ∃ last, met.getLast? = some last ∧ next last = none := by
  induction fuel generalizing a met with
  | zero => cases chased
  | succ fuel ih =>
    cases found : next a with
    | none =>
      rw [chase_end found] at chased
      cases chased
      exact ⟨rfl, List.isChain_singleton a, a, rfl, found⟩
    | some b =>
      rw [chase_step found] at chased
      obtain ⟨rest, later, rfl⟩ := Option.map_eq_some_iff.mp chased
      obtain ⟨first, linked, last, ended, stop⟩ := ih later
      refine ⟨rfl, ?_, last, ?_, stop⟩
      · rw [List.isChain_cons]
        refine ⟨?_, linked⟩
        intro y head
        rw [first] at head
        cases head
        exact found
      · cases rest with
        | nil => cases first
        | cons x rest => rw [List.getLast?_cons_cons, ended]

/-- When the fuel runs out, that many pointers have been followed. -/
theorem exists_path {fuel : ℕ} {a : α} (out : chase next fuel a = none) :
    ∃ path : List α, path.length = fuel ∧ (a :: path).IsChain fun x y => next x = some y := by
  induction fuel generalizing a with
  | zero => exact ⟨[], rfl, List.isChain_singleton a⟩
  | succ fuel ih =>
    cases found : next a with
    | none =>
      rw [chase_end found] at out
      cases out
    | some b =>
      rw [chase_step found, Option.map_eq_none_iff] at out
      obtain ⟨path, length, linked⟩ := ih out
      refine ⟨b :: path, by rw [List.length_cons, length], ?_⟩
      rw [List.isChain_cons_cons]
      exact ⟨found, linked⟩

/-- The walk ends: what can be reached is finite, and nothing leads back to itself. -/
theorem chase_total (reachable : List α) (within : ∀ x y, next x = some y → y ∈ reachable)
    (acyclic : ∀ x, ¬ Relation.TransGen (fun x y => next x = some y) x x) (a : α) :
    ∃ met, chase next (reachable.length + 1) a = some met := by
  cases chased : chase next (reachable.length + 1) a with
  | some met => exact ⟨met, rfl⟩
  | none =>
    obtain ⟨path, length, linked⟩ := exists_path chased
    have apart : (a :: path).Pairwise (Relation.TransGen fun x y => next x = some y) :=
      (linked.imp fun _ _ step => Relation.TransGen.single step).pairwise
    have distinct : path.Nodup := by
      refine (List.pairwise_cons.mp apart).2.imp ?_
      rintro x y leads rfl
      exact acyclic x leads
    have inside : path ⊆ reachable := by
      intro y member
      obtain ⟨x, step⟩ : ∃ x, next x = some y := by
        have leads := (List.pairwise_cons.mp apart).1 y member
        cases leads with
        | single step => exact ⟨a, step⟩
        | tail _ step => exact ⟨_, step⟩
      exact within x y step
    have few := (distinct.subperm inside).length_le
    omega

/-- Two walks over pointers that agree on what `view` sees. -/
theorem chase_agree {other : α → Option α} (view : α → β)
    (agree : ∀ x y x' y', view x = view y → next x = some x' → other y = some y' →
      view x' = view y')
    {fuel fuel' : ℕ} {a b : α} {met met' : List α} (start : view a = view b)
    (chased : chase next fuel a = some met) (chased' : chase other fuel' b = some met') :
    met.map view <+: met'.map view ∨ met'.map view <+: met.map view := by
  induction fuel generalizing fuel' a b met met' with
  | zero => cases chased
  | succ fuel ih =>
    cases fuel' with
    | zero => cases chased'
    | succ fuel' =>
      cases found : next a with
      | none =>
        obtain ⟨first, _⟩ := chase_linked chased'
        rw [chase_end found] at chased
        cases chased
        cases met' with
        | nil => cases first
        | cons x rest =>
          cases first
          exact Or.inl ⟨rest.map view, by simp [start]⟩
      | some a' =>
        cases found' : other b with
        | none =>
          obtain ⟨first, _⟩ := chase_linked chased
          rw [chase_end found'] at chased'
          cases chased'
          cases met with
          | nil => cases first
          | cons x rest =>
            cases first
            exact Or.inr ⟨rest.map view, by simp [start]⟩
        | some b' =>
          rw [chase_step found] at chased
          rw [chase_step found'] at chased'
          obtain ⟨rest, later, rfl⟩ := Option.map_eq_some_iff.mp chased
          obtain ⟨rest', later', rfl⟩ := Option.map_eq_some_iff.mp chased'
          rw [List.map_cons, List.map_cons, start, List.prefix_cons_inj, List.prefix_cons_inj]
          exact ih (agree a b a' b' start found found') later later'

end PointerChasing
