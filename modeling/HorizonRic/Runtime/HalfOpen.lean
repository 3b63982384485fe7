import HorizonRic.Runtime.CircuitBreaker
import Mathlib.Algebra.Order.Field.Rat
import Mathlib.Tactic.NormNum

/-!
One trial call. The gate refuses calls while the breaker is OPEN and its timeout
has not elapsed, but lets every call pass while it is HALF_OPEN: one trial is
started exactly when no call reaches the gate in that state.
-/
namespace HorizonRic.CircuitBreaker
open Machine

/-- What the library promises of its states. -/
structure Pybreaker.Documented {Breaker : Type} (py : Pybreaker Breaker) : Prop where
  halfOpen_state : ∀ b, py.currentState (py.halfOpen b) = .halfOpen
  success_halfOpen : ∀ b, py.currentState b = .halfOpen →
    py.currentState (py.handleSuccess b) = .closed
  error_halfOpen : ∀ b now, py.currentState b = .halfOpen →
    py.currentState (py.handleError b now) = .open ∧ py.openedAt (py.handleError b now) = some now
  success_closed : ∀ b, py.currentState b = .closed →
    py.currentState (py.handleSuccess b) = .closed ∧ py.counter (py.handleSuccess b) = 0
  error_closed : ∀ b now, py.currentState b = .closed →
    if py.failMax ≤ py.counter b + 1 then
      py.currentState (py.handleError b now) = .open ∧ py.openedAt (py.handleError b now) = some now
    else
      py.currentState (py.handleError b now) = .closed ∧
        py.counter (py.handleError b now) = py.counter b + 1
  success_open : ∀ b, py.currentState b = .open →
    py.currentState (py.handleSuccess b) = .open ∧ py.openedAt (py.handleSuccess b) = py.openedAt b
  error_open : ∀ b now, py.currentState b = .open →
    py.currentState (py.handleError b now) = .open ∧
      py.openedAt (py.handleError b now) = py.openedAt b

variable {Breaker : Type} {py : Pybreaker Breaker}

/-- At most one call is started while HALF_OPEN, none while OPEN before the timeout. -/
def OneTrial (py : Pybreaker Breaker) (s : System Breaker) : Prop :=
  (py.currentState s.breaker = .halfOpen → s.trials ≤ 1) ∧
    (py.currentState s.breaker = .open → ∃ opened, s.lastOpened = some opened ∧
      ∀ now, now < opened + py.resetTimeout → gate py s.breaker now = .rejected)

/-- No call reaches the gate while the breaker is HALF_OPEN. -/
def Undisturbed (py : Pybreaker Breaker) (s : System Breaker) : Event → Prop
  | .call _ => py.currentState s.breaker ≠ .halfOpen
  | .finish .. => True

/-- An open breaker knows when it opened, and entering HALF_OPEN starts a trial. -/
structure Consistent (py : Pybreaker Breaker) (s : System Breaker) : Prop where
  opened : py.currentState s.breaker = .open →
    ∃ opened, s.lastOpened = some opened ∧ py.openedAt s.breaker = some opened
  trial : py.currentState s.breaker = .halfOpen → 1 ≤ s.trials

section
variable (documented : py.Documented)
include documented

/-- A call either passes a breaker that is not open, or is refused, or makes it HALF_OPEN. -/
theorem gate_cases (b : Breaker) (now : ℚ) :
    (py.currentState b ≠ .open ∧ gate py b now = .started b) ∨
    (py.currentState b = .open ∧ gate py b now = .rejected) ∨
    (py.currentState b = .open ∧ ∃ b', gate py b now = .started b' ∧
      py.currentState b' = .halfOpen) := by
  by_cases isOpen : py.currentState b = .open
  · right
    rw [gate, if_pos isOpen]
    have entered := documented.halfOpen_state b
    cases py.openedAt b with
    | none => exact Or.inr ⟨isOpen, _, rfl, entered⟩
    | some openedAt =>
      by_cases early : now < openedAt + py.resetTimeout
      · exact Or.inl ⟨isOpen, if_pos early⟩
      · exact Or.inr ⟨isOpen, _, if_neg early, entered⟩
  · exact Or.inl ⟨isOpen, if_neg isOpen⟩

/-- A report never enters HALF_OPEN, and opens only with the time of opening. -/
theorem report_cases (b : Breaker) (outcome : Outcome) (now : ℚ) :
    py.currentState (report py b outcome now) = .closed ∨
    (py.currentState b ≠ .open ∧ py.currentState (report py b outcome now) = .open ∧
      py.openedAt (report py b outcome now) = some now) ∨
    (py.currentState b = .open ∧ py.currentState (report py b outcome now) = .open ∧
      py.openedAt (report py b outcome now) = py.openedAt b) := by
  have success : py.currentState (py.handleSuccess b) = .closed ∨
      (py.currentState b = .open ∧ py.currentState (py.handleSuccess b) = .open ∧
        py.openedAt (py.handleSuccess b) = py.openedAt b) := by
    cases state : py.currentState b with
    | closed => exact Or.inl (documented.success_closed b state).1
    | «open» => exact Or.inr ⟨rfl, documented.success_open b state⟩
    | halfOpen => exact Or.inl (documented.success_halfOpen b state)
  have error : py.currentState (py.handleError b now) = .closed ∨
      (py.currentState b ≠ .open ∧ py.currentState (py.handleError b now) = .open ∧
        py.openedAt (py.handleError b now) = some now) ∨
      (py.currentState b = .open ∧ py.currentState (py.handleError b now) = .open ∧
        py.openedAt (py.handleError b now) = py.openedAt b) := by
    cases state : py.currentState b with
    | closed =>
      have counted := documented.error_closed b now state
      split at counted
      · exact Or.inr (Or.inl ⟨by simp, counted⟩)
      · exact Or.inl counted.1
    | «open» => exact Or.inr (Or.inr ⟨rfl, documented.error_open b now state⟩)
    | halfOpen => exact Or.inr (Or.inl ⟨by simp, documented.error_halfOpen b now state⟩)
  cases outcome with
  | returned => exact success.imp_right Or.inr
  | raised exc =>
    rw [report]
    split
    · exact error
    · exact success.imp_right Or.inr

theorem step_consistent {s s' : System Breaker} {e : Event} (consistent : Consistent py s)
    (next : System.step py s e = some s') : Consistent py s' := by
  cases e with
  | call now =>
    rw [System.step] at next
    rcases gate_cases documented s.breaker now with
      ⟨notOpen, passes⟩ | ⟨_, refused⟩ | ⟨isOpen, b', passes, entered⟩
    · rw [passes] at next
      cases next
      refine ⟨fun state => absurd state notOpen, fun state => ?_⟩
      simp [notOpen]
    · rw [refused] at next
      cases next
      exact consistent
    · rw [passes] at next
      cases next
      constructor
      · intro state
        rw [entered] at state
        cases state
      · intro _
        simp [isOpen]
  | finish outcome now =>
    rw [System.step] at next
    split at next
    · cases next
    cases next
    rcases report_cases documented s.breaker outcome now with
      closed | ⟨notOpen, opens, at_⟩ | ⟨isOpen, stays, at_⟩
    · constructor
      · intro state
        rw [closed] at state
        cases state
      · intro state
        rw [closed] at state
        cases state
    · constructor
      · intro _
        exact ⟨now, by simp [notOpen, opens], at_⟩
      · intro state
        rw [opens] at state
        cases state
    · constructor
      · intro _
        obtain ⟨opened, last, known⟩ := consistent.opened isOpen
        exact ⟨opened, by simp [isOpen, last], by rw [at_, known]⟩
      · intro state
        rw [stays] at state
        cases state

end

theorem Consistent.refuses {s : System Breaker} (consistent : Consistent py s)
    (isOpen : py.currentState s.breaker = .open) : ∃ opened, s.lastOpened = some opened ∧
      ∀ now, now < opened + py.resetTimeout → gate py s.breaker now = .rejected := by
  obtain ⟨opened, last, known⟩ := consistent.opened isOpen
  refine ⟨opened, last, fun now early => ?_⟩
  rw [gate, if_pos isOpen, known]
  exact if_pos early

section
variable (documented : py.Documented)
include documented

/-- One trial is kept by steps that do not disturb it. -/
theorem step_trials {s s' : System Breaker} {e : Event}
    (trials : py.currentState s.breaker = .halfOpen → s.trials ≤ 1) (undisturbed : Undisturbed py s e)
    (next : System.step py s e = some s') : py.currentState s'.breaker = .halfOpen → s'.trials ≤ 1 := by
  intro state
  cases e with
  | call now =>
    rw [System.step] at next
    rcases gate_cases documented s.breaker now with
      ⟨_, passes⟩ | ⟨_, refused⟩ | ⟨isOpen, b', passes, _⟩
    · rw [passes] at next
      cases next
      exact absurd state undisturbed
    · rw [refused] at next
      cases next
      exact trials state
    · rw [passes] at next
      cases next
      simp [isOpen]
  | finish outcome now =>
    rw [System.step] at next
    split at next
    · cases next
    cases next
    rcases report_cases documented s.breaker outcome now with
      closed | ⟨_, opens, _⟩ | ⟨_, stays, _⟩
    · rw [closed] at state
      cases state
    · rw [opens] at state
      cases state
    · rw [stays] at state
      cases state

omit documented in
/-- A call that reaches the gate while the breaker is HALF_OPEN starts a second trial. -/
theorem disturbed_second_trial {s : System Breaker} (consistent : Consistent py s) (now : ℚ)
    (state : py.currentState s.breaker = .halfOpen) :
    ∃ s', System.step py s (.call now) = some s' ∧ ¬OneTrial py s' := by
  have passes : gate py s.breaker now = .started s.breaker := by
    rw [gate, if_neg (by rw [state]; decide)]
  have trial := consistent.trial state
  rw [System.step, passes]
  refine ⟨_, rfl, fun one => ?_⟩
  have second := one.1 state
  simp only [state] at second
  have notOpen : ¬CircuitState.halfOpen = CircuitState.open := by decide
  rw [if_neg notOpen] at second
  omega

/-- In every state of a run at most one trial is started while HALF_OPEN, and none while OPEN
    before the timeout, exactly when no call reaches the gate while the breaker is HALF_OPEN. -/
theorem half_open_one_trial (b : Breaker) (closed : py.currentState b = .closed)
    (events : List Event) :
    (∀ before after s', events = before ++ after →
      run (System.step py) (System.init b) before = some s' → OneTrial py s') ↔
    Along (System.step py) (Undisturbed py) (System.init b) events := by
  have consistent : ∀ before s', run (System.step py) (System.init b) before = some s' →
      Consistent py s' := by
    intro before s' reached
    have start : Consistent py (System.init b) := by
      constructor <;> intro state <;> rw [System.init, closed] at state <;> cases state
    exact run_invariant (Consistent py)
      (fun _ _ _ kept next => step_consistent documented kept next) start reached
  constructor
  · intro one
    apply along_iff.mpr
    intro before e after s' split reached
    cases e with
    | finish => trivial
    | call now =>
      intro state
      obtain ⟨s'', next, second⟩ := disturbed_second_trial (consistent before s' reached) now state
      apply second
      apply one (before ++ [.call now]) after s'' (by simp [split])
      rw [run_append, reached]
      simp [run, next]
  · intro along before after s' split reached
    have kept := consistent before s' reached
    refine ⟨?_, kept.refuses⟩
    refine run_keeps (fun s => py.currentState s.breaker = .halfOpen → s.trials ≤ 1)
      (fun _ _ _ => step_trials documented) ?_ (split ▸ along).prefix_ reached
    intro state
    rw [System.init, closed] at state
    cases state

end

/-- The library's breaker with its state storage in memory. -/
def memoryBreaker (failMax : ℕ) (resetTimeout : ℚ) :
    Pybreaker (CircuitState × Option ℚ × ℕ) where
  currentState := fun b => b.1
  openedAt := fun b => b.2.1
  counter := fun b => b.2.2
  failMax := failMax
  resetTimeout := resetTimeout
  halfOpen := fun b => (.halfOpen, b.2)
  handleSuccess := fun b =>
    if b.1 = .open then (.open, b.2.1, 0) else (.closed, b.2.1, 0)
  handleError := fun b now =>
    match b.1 with
    | .closed =>
      if failMax ≤ b.2.2 + 1 then (.open, some now, b.2.2 + 1) else (.closed, b.2.1, b.2.2 + 1)
    | .open => (.open, b.2.1, b.2.2 + 1)
    | .halfOpen => (.open, some now, b.2.2 + 1)

theorem memoryBreaker_documented (failMax : ℕ) (resetTimeout : ℚ) :
    (memoryBreaker failMax resetTimeout).Documented := by
  constructor
  · exact fun _ => rfl
  · intro b state
    simp only [memoryBreaker] at state ⊢
    simp [state]
  · intro b now state
    simp only [memoryBreaker] at state ⊢
    simp [state]
  · intro b state
    simp only [memoryBreaker] at state ⊢
    simp [state]
  · intro b now state
    simp only [memoryBreaker] at state ⊢
    split <;> simp_all
  · intro b state
    simp only [memoryBreaker] at state ⊢
    simp [state]
  · intro b now state
    simp only [memoryBreaker] at state ⊢
    simp [state]

/-- A failure opens the breaker; a call after the timeout is the trial. -/
theorem memoryBreaker_trial :
    run (System.step (memoryBreaker 1 30)) (System.init (.closed, none, 0))
      [.call 0, .finish (.raised .connectError) 0, .call 30] =
        some ⟨(.halfOpen, some 0, 1), 1, 1, some 0⟩ := by
  simp [run, System.step, System.init, gate, report, memoryBreaker, isFailure]

theorem half_open_one_trial_closing :
    ∃ s, run (System.step (memoryBreaker 1 30)) (System.init (.closed, none, 0))
        [.call 0, .finish (.raised .connectError) 0, .call 30] = some s ∧ OneTrial (memoryBreaker 1 30) s := by
  refine ⟨_, memoryBreaker_trial, (half_open_one_trial (memoryBreaker_documented 1 30)
    (.closed, none, 0) rfl [.call 0, .finish (.raised .connectError) 0, .call 30]).mpr ?_
    _ [] _ (List.append_nil _).symm memoryBreaker_trial⟩
  simp [Along, Undisturbed, System.step, System.init, gate, report, memoryBreaker, isFailure]

/-- Two calls after the timeout are two trials. -/
theorem half_open_two_trials :
    ¬∀ events s, run (System.step (memoryBreaker 1 30)) (System.init (.closed, none, 0)) events =
      some s → OneTrial (memoryBreaker 1 30) s := by
  intro all
  have reached : run (System.step (memoryBreaker 1 30)) (System.init (.closed, none, 0))
      ([.call 0, .finish (.raised .connectError) 0, .call 30] ++ [.call 31]) =
        some ⟨(.halfOpen, some 0, 1), 2, 2, some 0⟩ := by
    rw [run_append, memoryBreaker_trial]
    rfl
  have one := all _ _ reached
  exact absurd (one.1 rfl) (by decide)

end HorizonRic.CircuitBreaker
