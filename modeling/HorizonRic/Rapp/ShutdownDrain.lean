import HorizonRic.Library.Machine

/-!
`HorizonRAppLifecycle.shutdown` and the planner tasks it drains. Callers track tasks and
tasks end at any moment between two awaits of the shutdown, which waits on the tasks that
were in flight when it raised the drain signal.
-/
namespace HorizonRic.ShutdownDrain

inductive Ending where
  | returned
  | raised
  | cancelled
  deriving DecidableEq

inductive TaskStatus where
  | pending (cancelRequested : Bool)
  | ended (how : Ending)
  deriving DecidableEq

structure PlannerTask where
  status : TaskStatus
  /-- In `_planner_tasks`. -/
  tracked : Bool
  /-- First passed to `track_planner_task` when the drain signal was up. -/
  underDrain : Bool
  deriving DecidableEq

namespace PlannerTask

def done (t : PlannerTask) : Bool :=
  match t.status with
  | .pending _ => false
  | .ended _ => true

/-- `task.cancel()`: a task that ended stays as it is. -/
def cancel (t : PlannerTask) : PlannerTask :=
  match t.status with
  | .pending _ => { t with status := .pending true }
  | .ended _ => t

end PlannerTask

/-- The await at which the shutdown stands. -/
inductive Phase where
  | serving
  | waiting (inFlight : List ℕ)
  | awaiting (pending : List ℕ)
  | deregistering
  | closingR1
  | closingA1
  | stopped
  | raised
  deriving DecidableEq

structure Lifecycle where
  tasks : List PlannerTask
  drainSignal : Bool
  phase : Phase

namespace Lifecycle

def boot : Lifecycle := ⟨[], false, .serving⟩

def isPending (l : Lifecycle) (k : ℕ) : Bool := (l.tasks[k]?).any fun t => !t.done

/-- `[t for t in self._planner_tasks if not t.done()]`. -/
def inFlight (l : Lifecycle) : List ℕ :=
  (List.range l.tasks.length).filter fun k => (l.tasks[k]?).any fun t => t.tracked && !t.done

def trackPlannerTask (l : Lifecycle) (status : TaskStatus) : Lifecycle :=
  { l with tasks := l.tasks ++ [⟨status, true, l.drainSignal⟩] }

def update (l : Lifecycle) (k : ℕ) (f : PlannerTask → PlannerTask) : Lifecycle :=
  { l with tasks := l.tasks.modify k f }

/-- After the last cancelled task the adapters are closed. -/
def afterCancel : List ℕ → Phase
  | [] => .deregistering
  | k :: rest => .awaiting (k :: rest)

def shutdown (l : Lifecycle) : Lifecycle :=
  { l with
    drainSignal := true
    phase := if l.inFlight = [] then .deregistering else .waiting l.inFlight }

/-- `asyncio.wait` returns, and every task that is still pending is cancelled. The order of
    the set does not matter. -/
def cancelPending (l : Lifecycle) (inFlight : List ℕ) : Lifecycle :=
  let pending := inFlight.filter l.isPending
  { pending.foldl (fun l k => l.update k PlannerTask.cancel) l with phase := afterCancel pending }

end Lifecycle

inductive Event where
  | trackPlannerTask (status : TaskStatus)
  | trackAgain (k : ℕ)
  | taskEnds (k : ℕ) (how : Ending)
  | doneCallback (k : ℕ)
  | shutdown
  | waitReturns (timedOut : Bool)
  | awaited
  | deregistered (ok : Bool)
  | r1Closed (ok : Bool)
  | closeA1

open Lifecycle in
def step (l : Lifecycle) : Event → Option Lifecycle
  | .trackPlannerTask status => some (l.trackPlannerTask status)
  | .trackAgain k => some (l.update k fun t => { t with tracked := true })
  | .taskEnds k how =>
    if l.isPending k then some (l.update k fun t => { t with status := .ended how }) else none
  | .doneCallback k =>
    if l.isPending k then none else some (l.update k fun t => { t with tracked := false })
  | .shutdown =>
    match l.phase with
    | .serving => some l.shutdown
    | _ => none
  | .waitReturns timedOut =>
    match l.phase with
    | .waiting inFlight =>
      if timedOut ∨ ∀ k ∈ inFlight, l.isPending k = false then some (l.cancelPending inFlight)
      else none
    | _ => none
  | .awaited =>
    match l.phase with
    | .awaiting (k :: rest) =>
      if l.isPending k then none else some { l with phase := afterCancel rest }
    | _ => none
  | .deregistered ok =>
    match l.phase with
    | .deregistering => some { l with phase := if ok then .closingR1 else .raised }
    | _ => none
  | .r1Closed ok =>
    match l.phase with
    | .closingR1 => some { l with phase := if ok then .closingA1 else .raised }
    | _ => none
  | .closeA1 =>
    match l.phase with
    | .closingA1 => some { l with phase := .stopped }
    | _ => none

/-- The tasks that the shutdown has yet to see done. -/
def Phase.remaining : Phase → List ℕ
  | .waiting inFlight => inFlight
  | .awaiting pending => pending
  | _ => []

/-- What the drain has established so far. -/
structure Drains (l : Lifecycle) : Prop where
  signal : l.drainSignal = false ↔ l.phase = .serving
  registered : ∀ (k : ℕ) (t : PlannerTask), l.tasks[k]? = some t → t.done = false →
    t.tracked = true
  covered : l.phase ≠ .serving → ∀ (k : ℕ) (t : PlannerTask), l.tasks[k]? = some t →
    t.underDrain = false → t.done = false → k ∈ l.phase.remaining

section
variable {l l' : Lifecycle}

theorem boot_drains : Drains Lifecycle.boot where
  signal := ⟨fun _ => rfl, fun _ => rfl⟩
  registered k t found := by simp [Lifecycle.boot] at found
  covered _ k t found := by simp [Lifecycle.boot] at found

theorem isPending_iff {k : ℕ} :
    l.isPending k = true ↔ ∃ t, l.tasks[k]? = some t ∧ t.done = false := by
  unfold Lifecycle.isPending
  cases l.tasks[k]? <;> simp

/-- A change of one task that neither revives it nor drops it while it is pending. -/
theorem update_drains (drains : Drains l) (k : ℕ) (f : PlannerTask → PlannerTask)
    (under : ∀ t, (f t).underDrain = t.underDrain)
    (ends : ∀ t, (f t).done = false → t.done = false)
    (keeps : ∀ t, l.tasks[k]? = some t → (f t).done = false → (f t).tracked = true) :
    Drains (l.update k f) := by
  have found_iff : ∀ j t', (l.update k f).tasks[j]? = some t' →
      ∃ t, l.tasks[j]? = some t ∧ (t' = t ∨ (j = k ∧ t' = f t)) := by
    intro j t' found
    rw [Lifecycle.update, List.getElem?_modify] at found
    cases before : l.tasks[j]? with
    | none => simp [before] at found
    | some t =>
      refine ⟨t, rfl, ?_⟩
      by_cases here : k = j
      · right
        simp [before, here] at found
        exact ⟨here.symm, found.symm⟩
      · left
        simp [before, here] at found
        exact found.symm
  constructor
  · exact drains.signal
  · intro j t' found notDone
    obtain ⟨t, before, same | ⟨here, changed⟩⟩ := found_iff j t' found
    · rw [same] at notDone ⊢
      exact drains.registered j t before notDone
    · rw [changed] at notDone ⊢
      exact keeps t (here ▸ before) notDone
  · intro shuttingDown j t' found early notDone
    obtain ⟨t, before, same | ⟨_, changed⟩⟩ := found_iff j t' found
    · rw [same] at early notDone
      exact drains.covered shuttingDown j t before early notDone
    · rw [changed] at early notDone
      rw [under] at early
      exact drains.covered shuttingDown j t before early (ends t notDone)

theorem track_drains (drains : Drains l) (status : TaskStatus) :
    Drains (l.trackPlannerTask status) := by
  have cases_ : ∀ (k : ℕ) (t : PlannerTask), (l.trackPlannerTask status).tasks[k]? = some t →
      l.tasks[k]? = some t ∨ t = ⟨status, true, l.drainSignal⟩ := by
    intro k t found
    rcases Nat.lt_trichotomy k l.tasks.length with before | here | after
    · left
      rwa [Lifecycle.trackPlannerTask, List.getElem?_append_left before] at found
    · right
      rw [Lifecycle.trackPlannerTask, here, List.getElem?_concat_length] at found
      exact (Option.some.inj found).symm
    · rw [List.getElem?_eq_none] at found
      · cases found
      · simp only [Lifecycle.trackPlannerTask, List.length_append, List.length_singleton]
        omega
  constructor
  · exact drains.signal
  · intro k t found notDone
    rcases cases_ k t found with old | new
    · exact drains.registered k t old notDone
    · rw [new]
  · intro shuttingDown k t found early notDone
    rcases cases_ k t found with old | new
    · exact drains.covered shuttingDown k t old early notDone
    · -- the signal has been up since the shutdown began
      rw [new] at early
      exact absurd (drains.signal.mp early) shuttingDown

/-- The snapshot holds every task that is not done. -/
theorem mem_inFlight (drains : Drains l) {k : ℕ} {t : PlannerTask} (found : l.tasks[k]? = some t)
    (notDone : t.done = false) : k ∈ l.inFlight := by
  rw [Lifecycle.inFlight, List.mem_filter, List.mem_range]
  refine ⟨(List.getElem?_eq_some_iff.mp found).1, ?_⟩
  rw [found, Option.any_some, drains.registered k t found notDone, notDone]
  rfl

theorem shutdown_drains (drains : Drains l) : Drains l.shutdown := by
  have started : l.shutdown.phase ≠ .serving := by
    unfold Lifecycle.shutdown
    dsimp only
    split <;> simp
  constructor
  · constructor
    · intro up
      cases up
    · intro serving
      exact absurd serving started
  · exact drains.registered
  · intro _ k t found early notDone
    have member := mem_inFlight drains found notDone
    unfold Lifecycle.shutdown
    dsimp only
    split
    · rename_i empty
      rw [empty] at member
      cases member
    · exact member

theorem cancel_done (t : PlannerTask) : t.cancel.done = t.done := by
  obtain ⟨status, tracked, underDrain⟩ := t
  cases status <;> rfl

theorem cancelAll_drains (drains : Drains l) (pending : List ℕ) :
    Drains (pending.foldl (fun l k => l.update k PlannerTask.cancel) l) ∧
      (pending.foldl (fun l k => l.update k PlannerTask.cancel) l).phase = l.phase ∧
      (pending.foldl (fun l k => l.update k PlannerTask.cancel) l).isPending = l.isPending := by
  induction pending generalizing l with
  | nil => exact ⟨drains, rfl, rfl⟩
  | cons k rest ih =>
    have one : Drains (l.update k PlannerTask.cancel) := by
      apply update_drains drains
      · intro t
        unfold PlannerTask.cancel
        split <;> rfl
      · intro t notDone
        rwa [cancel_done] at notDone
      · intro t found notDone
        rw [cancel_done] at notDone
        have tracked := drains.registered k t found notDone
        unfold PlannerTask.cancel
        split <;> exact tracked
    have same : (l.update k PlannerTask.cancel).isPending = l.isPending := by
      funext j
      unfold Lifecycle.isPending Lifecycle.update
      rw [List.getElem?_modify]
      cases l.tasks[j]? with
      | none => simp
      | some t =>
        by_cases here : k = j
        · simp [here, cancel_done]
        · simp [here]
    obtain ⟨later, phase, pending⟩ := ih one
    exact ⟨later, phase, pending.trans same⟩

theorem afterCancel_remaining (pending : List ℕ) :
    (Lifecycle.afterCancel pending).remaining = pending := by
  cases pending <;> rfl

theorem afterCancel_not_serving (pending : List ℕ) :
    Lifecycle.afterCancel pending ≠ .serving := by
  cases pending <;> simp [Lifecycle.afterCancel]

/-- A later phase that still covers the pending early tasks. -/
theorem phase_drains (drains : Drains l) (shuttingDown : l.phase ≠ .serving) {phase : Phase}
    (still : phase ≠ .serving) (covers : ∀ k ∈ l.phase.remaining, l.isPending k = true →
      k ∈ phase.remaining) : Drains { l with phase := phase } where
  signal := ⟨fun up => absurd (drains.signal.mp up) shuttingDown, fun serving => absurd serving still⟩
  registered := drains.registered
  covered _ k t found early notDone :=
    covers k (drains.covered shuttingDown k t found early notDone)
      (isPending_iff.mpr ⟨t, found, notDone⟩)

/-- Nothing is left to cover. -/
theorem covered_drains (drains : Drains l) {now phase : Phase} (here : l.phase = now)
    (shuttingDown : now ≠ .serving) (none : now.remaining = []) (still : phase ≠ .serving) :
    Drains { l with phase := phase } := by
  apply phase_drains drains
  · rwa [here]
  · exact still
  · intro k member
    rw [here, none] at member
    cases member

/-- When `asyncio.wait` has returned, the tasks still pending are those that are awaited. -/
theorem cancelPending_drains (drains : Drains l) {inFlight : List ℕ}
    (waiting : l.phase = .waiting inFlight) : Drains (l.cancelPending inFlight) := by
  obtain ⟨cancelled, phase, pending⟩ := cancelAll_drains drains (inFlight.filter l.isPending)
  apply phase_drains cancelled
  · rw [phase, waiting]
    simp
  · exact afterCancel_not_serving _
  · intro k member still
    rw [phase, waiting] at member
    rw [pending] at still
    rw [afterCancel_remaining, List.mem_filter]
    exact ⟨member, still⟩

/-- A cancelled task that has ended need not be covered any more. -/
theorem awaited_drains (drains : Drains l) {k : ℕ} {rest : List ℕ}
    (awaiting : l.phase = .awaiting (k :: rest)) (ended : l.isPending k ≠ true) :
    Drains { l with phase := Lifecycle.afterCancel rest } := by
  apply phase_drains drains
  · rw [awaiting]
    simp
  · exact afterCancel_not_serving _
  · intro j member still
    rw [awaiting] at member
    rw [afterCancel_remaining]
    rcases List.mem_cons.mp member with here | later
    · rw [here] at still
      exact absurd still ended
    · exact later

theorem step_drains (drains : Drains l) (e : Event) (next : step l e = some l') : Drains l' := by
  cases e with
  | trackPlannerTask status =>
    cases next
    exact track_drains drains status
  | trackAgain k =>
    cases next
    exact update_drains drains k _ (fun _ => rfl) (fun _ notDone => notDone) (fun _ _ _ => rfl)
  | taskEnds k how =>
    rw [step] at next
    split at next
    · cases next
      apply update_drains drains
      · intro t
        rfl
      · intro t notDone
        cases notDone
      · intro t _ notDone
        cases notDone
    · cases next
  | doneCallback k =>
    rw [step] at next
    split at next
    · cases next
    · rename_i notPending
      cases next
      apply update_drains drains
      · intro t
        rfl
      · intro t notDone
        exact notDone
      · intro t found notDone
        exact absurd (isPending_iff.mpr ⟨t, found, notDone⟩) notPending
  | shutdown =>
    rw [step] at next
    split at next
    · cases next
      exact shutdown_drains drains
    · cases next
  | waitReturns timedOut =>
    rw [step] at next
    split at next
    · rename_i inFlight waiting
      split at next
      · cases next
        exact cancelPending_drains drains waiting
      · cases next
    · cases next
  | awaited =>
    rw [step] at next
    split at next
    · rename_i k rest awaiting
      split at next
      · cases next
      · rename_i ended
        cases next
        exact awaited_drains drains awaiting ended
    · cases next
  | deregistered ok =>
    rw [step] at next
    split at next
    · rename_i deregistering
      cases next
      exact covered_drains drains deregistering nofun rfl (by split <;> simp)
    · cases next
  | r1Closed ok =>
    rw [step] at next
    split at next
    · rename_i closing
      cases next
      exact covered_drains drains closing nofun rfl (by split <;> simp)
    · cases next
  | closeA1 =>
    rw [step] at next
    split at next
    · rename_i closing
      cases next
      exact covered_drains drains closing nofun rfl nofun
    · cases next

/-- In every run, the early tasks are done when the A1 adapter is closed; the tasks tracked
    under the drain signal are what is left of the claim. -/
theorem drained_iff (es : List Event) (l l' : Lifecycle)
    (reached : Machine.run step Lifecycle.boot es = some l) (closes : step l .closeA1 = some l') :
    (∀ t ∈ l.tasks, t.done = true) ↔ ∀ t ∈ l.tasks, t.underDrain = true → t.done = true := by
  have drains : Drains l := Machine.run_invariant Drains
    (fun l e l' drains next => step_drains drains e next) boot_drains reached
  have closing : l.phase = .closingA1 := by
    rw [step] at closes
    split at closes
    · assumption
    · cases closes
  constructor
  · intro all t member _
    exact all t member
  · intro late t member
    by_contra pending
    have notDone := (Bool.not_eq_true _).mp pending
    obtain ⟨k, found⟩ := List.getElem?_of_mem member
    have early : t.underDrain = false := by
      by_contra under
      exact pending (late t member ((Bool.not_eq_false _).mp under))
    have remains := drains.covered (by rw [closing]; simp) k t found early notDone
    rw [closing] at remains
    cases remains

end

/-- A task that outlives its cancellation for a while. -/
def stubbornDrain : List Event :=
  [.trackPlannerTask (.pending false), .shutdown, .waitReturns true, .taskEnds 0 .returned,
    .awaited, .doneCallback 0, .deregistered true, .r1Closed true]

theorem drained_stubborn : ∃ l l',
    Machine.run step Lifecycle.boot stubbornDrain = some l ∧ step l .closeA1 = some l' ∧
      ∀ t ∈ l.tasks, t.done = true := by
  refine ⟨_, _, rfl, rfl, (drained_iff stubbornDrain _ _ rfl rfl).mpr ?_⟩
  decide

/-- A caller that is still running tracks a second task while the first one drains. -/
def lateTrack : List Event :=
  [.trackPlannerTask (.pending false), .shutdown, .trackPlannerTask (.pending false),
    .taskEnds 0 .returned, .waitReturns false, .deregistered true, .r1Closed true]

theorem late_task_pending : ∃ l l',
    Machine.run step Lifecycle.boot lateTrack = some l ∧ step l .closeA1 = some l' ∧
      ∃ t ∈ l.tasks, t.done = false := by
  refine ⟨_, _, rfl, rfl, ?_⟩
  decide

end HorizonRic.ShutdownDrain
