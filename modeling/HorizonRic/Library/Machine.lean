import Mathlib.Data.List.Basic

/-!
Runs of a machine whose steps may be refused, and what a run keeps when each of
its steps meets a condition on the state before it.
-/
namespace Machine

variable {σ ε : Type}

/-- The state after the events, if no step refuses. -/
def run (step : σ → ε → Option σ) : σ → List ε → Option σ
  | s, [] => some s
  | s, e :: es =>
    match step s e with
    | none => none
    | some s' => run step s' es

/-- Every step of the run meets the condition in the state before it. -/
def Along (step : σ → ε → Option σ) (meets : σ → ε → Prop) : σ → List ε → Prop
  | _, [] => True
  | s, e :: es => meets s e ∧ ∀ s', step s e = some s' → Along step meets s' es

variable {step : σ → ε → Option σ} {meets : σ → ε → Prop} {s s' : σ}

theorem run_cons {e : ε} (next : step s e = some s') (es : List ε) :
    run step s (e :: es) = run step s' es := by
  rw [run, next]

theorem run_cons_eq_some {e : ε} {es : List ε} : run step s (e :: es) = some s' ↔
    ∃ middle, step s e = some middle ∧ run step middle es = some s' := by
  rw [run]
  cases next : step s e with
  | none => simp
  | some middle => simp

theorem along_cons {e : ε} {middle : σ} (next : step s e = some middle) (es : List ε) :
    Along step meets s (e :: es) ↔ meets s e ∧ Along step meets middle es := by
  constructor
  · rintro ⟨met, rest⟩
    exact ⟨met, rest middle next⟩
  · rintro ⟨met, rest⟩
    refine ⟨met, fun other same => ?_⟩
    rw [next] at same
    cases same
    exact rest

/-- What each step keeps under the condition, a run keeps whose steps meet it. -/
theorem run_keeps (keeps : σ → Prop)
    (one : ∀ s e s', keeps s → meets s e → step s e = some s' → keeps s') {es : List ε}
    (start : keeps s) (along : Along step meets s es) (reached : run step s es = some s') :
    keeps s' := by
  induction es generalizing s with
  | nil =>
    cases reached
    exact start
  | cons e es ih =>
    obtain ⟨met, rest⟩ := along
    obtain ⟨middle, next, reached⟩ := run_cons_eq_some.mp reached
    exact ih (one s e middle start met next) (rest middle next) reached

/-- The condition step by step, in the states that prefixes of the run reach. -/
theorem along_iff {es : List ε} : Along step meets s es ↔
    ∀ before e after s', es = before ++ e :: after → run step s before = some s' → meets s' e := by
  induction es generalizing s with
  | nil =>
    constructor
    · intro _ before e after s' split
      simp at split
    · intro _
      trivial
  | cons e es ih =>
    constructor
    · rintro ⟨met, rest⟩ before e' after s' split reached
      cases before with
      | nil =>
        cases split
        cases reached
        exact met
      | cons first before =>
        cases split
        obtain ⟨middle, next, reached⟩ := run_cons_eq_some.mp reached
        exact ih.mp (rest middle next) before e' after s' rfl reached
    · intro all
      refine ⟨all [] e es s rfl rfl, fun middle next => ih.mpr ?_⟩
      intro before e' after s' split reached
      apply all (e :: before) e' after s' (by rw [split, List.cons_append])
      rw [run, next]
      exact reached

/-- What every step keeps, every run keeps. -/
theorem run_invariant (keeps : σ → Prop)
    (one : ∀ s e s', keeps s → step s e = some s' → keeps s') {es : List ε}
    (start : keeps s) (reached : run step s es = some s') : keeps s' := by
  have always : Along step (fun _ _ => True) s es := along_iff.mpr fun _ _ _ _ _ _ => trivial
  exact run_keeps keeps (fun s e s' kept _ next => one s e s' kept next) start always reached

/-- A property that every step keeps exactly where it meets the condition, and whose loss is seen
    at once, holds in all states seen exactly in the runs along the condition. -/
theorem holds_along_iff {holds seen : σ → Prop}
    (keeps : ∀ s e s', holds s → step s e = some s' → (holds s' ↔ meets s e))
    (noticed : ∀ s e s', step s e = some s' → ¬meets s e → seen s')
    (refused : ∀ s e, step s e = none → meets s e) (start : holds s) (es : List ε) :
    (∀ before after s', es = before ++ after → run step s before = some s' → seen s' → holds s') ↔
      Along step meets s es := by
  induction es generalizing s with
  | nil =>
    refine iff_of_true ?_ trivial
    intro before after s' parts reached _
    rw [(List.append_eq_nil_iff.mp parts.symm).1] at reached
    cases reached
    exact start
  | cons e es ih =>
    cases next : step s e with
    | none =>
      refine iff_of_true ?_ ⟨refused s e next, fun s' same => ?_⟩
      · intro before after s' parts reached _
        cases before with
        | nil =>
          cases reached
          exact start
        | cons first before =>
          cases parts
          rw [run, next] at reached
          cases reached
      · rw [next] at same
        cases same
    | some middle =>
      rw [along_cons next]
      by_cases met : meets s e
      · rw [and_iff_right met, ← ih ((keeps s e middle start next).mpr met)]
        constructor
        · intro all before after s' parts reached
          exact all (e :: before) after s' (by rw [parts, List.cons_append])
            ((run_cons next before).trans reached)
        · intro all before after s' parts reached observed
          cases before with
          | nil =>
            cases reached
            exact start
          | cons first before =>
            cases parts
            rw [run_cons next] at reached
            exact all before after s' rfl reached observed
      · -- the state after it is seen, and the property is lost there
        refine iff_of_false (fun all => ?_) fun along => met along.1
        have reached : run step s [e] = some middle := by
          rw [run_cons next, run]
        exact met ((keeps s e middle start next).mp
          (all [e] es middle rfl reached (noticed s e middle next met)))

theorem Along.prefix_ {es es' : List ε} (along : Along step meets s (es ++ es')) :
    Along step meets s es := by
  rw [along_iff] at along ⊢
  intro before e after s' split reached
  exact along before e (after ++ es') s' (by simp [split]) reached

theorem run_append (es es' : List ε) :
    run step s (es ++ es') = (run step s es).bind fun s' => run step s' es' := by
  induction es generalizing s with
  | nil => rfl
  | cons e es ih =>
    rw [List.cons_append, run, run]
    cases step s e with
    | none => rfl
    | some middle => exact ih

end Machine
