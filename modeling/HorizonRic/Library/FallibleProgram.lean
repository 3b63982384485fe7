import Mathlib.Logic.Basic

/-!
Programs that change a state and may end with an exception or in a crash, at any
of their steps. A crash runs no cleanup; an exception runs that of the blocks it
leaves.
-/
namespace FallibleProgram

/-- How a program ends. -/
inductive Verdict (ε : Type) where
  | done
  | raised (e : ε)
  | crashed

/-- What becomes of one step. A step that crashes may have had its effect. -/
inductive Fate (ε : Type) where
  | done
  | raised (e : ε)
  | crashed (tookEffect : Bool)

def Program (σ ε : Type) : Type := σ → σ × Verdict ε

namespace Program

variable {σ ε : Type}

def pass : Program σ ε := fun s => (s, .done)

def throw (e : ε) : Program σ ε := fun s => (s, .raised e)

def attempt (fate : Fate ε) (effect : σ → σ) : Program σ ε := fun s =>
  match fate with
  | .done => (effect s, .done)
  | .raised e => (s, .raised e)
  | .crashed tookEffect => (if tookEffect then effect s else s, .crashed)

def andThen (first second : Program σ ε) : Program σ ε := fun s =>
  match first s with
  | (s, .done) => second s
  | stopped => stopped

/-- A block with its exit, which sees how the block ended and may replace its exception. -/
def ensuring (body : Program σ ε) (exit : Verdict ε → Program σ ε) : Program σ ε := fun s =>
  match body s with
  | (s, .crashed) => (s, .crashed)
  | (s, verdict) =>
    match exit verdict s with
    | (s, .done) => (s, verdict)
    | stopped => stopped

def catching (body : Program σ ε) (caught : ε → Bool) (handler : ε → Program σ ε) :
    Program σ ε := fun s =>
  match body s with
  | (s, .raised e) => if caught e then handler e s else (s, .raised e)
  | ended => ended

/-! What a program keeps in every case, and what it reaches when it is done. -/

/-- From a state with `before` every end has `keeps`, and a program that is done has reached the
    goal. -/
def Reaches (program : Program σ ε) (before keeps goal : σ → Prop) : Prop :=
  ∀ s, before s → keeps (program s).1 ∧ ((program s).2 = .done → goal (program s).1)

variable {before keeps goal : σ → Prop}

theorem reaches_pass (kept : ∀ s, before s → keeps s) (reached : ∀ s, before s → goal s) :
    (pass : Program σ ε).Reaches before keeps goal :=
  fun s start => ⟨kept s start, fun _ => reached s start⟩

theorem reaches_throw {e : ε} (kept : ∀ s, before s → keeps s) :
    (throw e : Program σ ε).Reaches before keeps goal := by
  intro s start
  refine ⟨kept s start, fun done => ?_⟩
  cases done

theorem reaches_attempt {fate : Fate ε} {effect : σ → σ} (kept : ∀ s, before s → keeps s)
    (moved : ∀ s, before s → keeps (effect s))
    (reached : fate = .done → ∀ s, before s → goal (effect s)) :
    (attempt fate effect).Reaches before keeps goal := by
  intro s start
  unfold attempt
  cases fate with
  | done => exact ⟨moved s start, fun _ => reached rfl s start⟩
  | raised e => exact ⟨kept s start, fun done => by cases done⟩
  | crashed tookEffect =>
    refine ⟨?_, fun done => by cases done⟩
    cases tookEffect with
    | true => exact moved s start
    | false => exact kept s start

namespace Reaches

theorem andThen {first second : Program σ ε} {mid : σ → Prop}
    (one : first.Reaches before keeps mid) (two : second.Reaches mid keeps goal) :
    (first.andThen second).Reaches before keeps goal := by
  intro s start
  obtain ⟨kept, done⟩ := one s start
  unfold Program.andThen
  split
  · rename_i ended
    rw [ended] at done
    exact two _ (done rfl)
  · rename_i notDone
    exact ⟨kept, fun same => (notDone _ (Prod.ext rfl same)).elim⟩

theorem ensuring {body : Program σ ε} {exit : Verdict ε → Program σ ε} {mid : σ → Prop}
    (inner : body.Reaches before keeps mid) (left : (exit .done).Reaches mid keeps goal)
    (unwound : ∀ e, (exit (.raised e)).Reaches keeps keeps keeps) :
    (body.ensuring exit).Reaches before keeps goal := by
  intro s start
  obtain ⟨kept, done⟩ := inner s start
  unfold Program.ensuring
  split
  · rename_i ended
    rw [ended] at kept
    exact ⟨kept, fun same => by cases same⟩
  · rename_i s' verdict notCrashed ended
    rw [ended] at kept done
    cases verdict with
    | crashed => exact (notCrashed rfl).elim
    | done =>
      have last := left s' (done rfl)
      split
      · rename_i exited
        rw [exited] at last
        exact last
      · exact last
    | raised e =>
      have last := unwound e s' kept
      split
      · rename_i exited
        rw [exited] at last
        exact ⟨last.1, fun same => by cases same⟩
      · rename_i notDone
        exact ⟨last.1, fun same => (notDone _ (Prod.ext rfl same)).elim⟩

theorem catching {body : Program σ ε} {caught : ε → Bool} {handler : ε → Program σ ε}
    (inner : body.Reaches before keeps goal) (handled : ∀ e, (handler e).Reaches keeps keeps goal) :
    (body.catching caught handler).Reaches before keeps goal := by
  intro s start
  have ended := inner s start
  unfold Program.catching
  split
  · rename_i s' e raised
    rw [raised] at ended
    split
    · exact handled e s' ended.1
    · exact ended
  · exact ended

theorem weaken {program : Program σ ε} {keeps' : σ → Prop}
    (reaches : program.Reaches before keeps goal) (kept : ∀ s, keeps s → keeps' s) :
    program.Reaches before keeps' goal :=
  fun s start => ⟨kept _ (reaches s start).1, (reaches s start).2⟩

end Reaches

/-- A step, and the rest of the program where it is done. -/
theorem reaches_attempt_then {fate : Fate ε} {effect : σ → σ} {rest : Program σ ε}
    {mid : σ → Prop} (kept : ∀ s, before s → keeps s) (moved : ∀ s, before s → keeps (effect s))
    (reached : ∀ s, before s → mid (effect s))
    (later : fate = .done → rest.Reaches mid keeps goal) :
    ((attempt fate effect).andThen rest).Reaches before keeps goal := by
  have step : (attempt fate effect).Reaches before keeps fun s => fate = .done ∧ mid s :=
    reaches_attempt kept moved fun done s start => ⟨done, reached s start⟩
  exact step.andThen fun s both => later both.1 s both.2

/-- A step that changes nothing. -/
theorem reaches_idle_then {fate : Fate ε} {rest : Program σ ε} (kept : ∀ s, before s → keeps s)
    (later : fate = .done → rest.Reaches before keeps goal) :
    ((attempt fate id).andThen rest).Reaches before keeps goal :=
  reaches_attempt_then kept kept (fun _ start => start) later

end Program
end FallibleProgram
