import Mathlib.Logic.Relation
import Mathlib.Logic.Function.Basic
import Mathlib.Data.List.Nodup

/-!
Calls that read a shared state, compute, and write it back while they hold one
lock. However their steps interleave, a state in which no call holds the lock is
the one a serial run of the finished calls leaves, in the order they finished,
and every call returned what it returns in that run.
-/
namespace CriticalSection

/-- The body of a call between acquiring and releasing the lock. -/
structure Call (σ ε α β ρ : Type) where
  read : σ → Except ε α
  compute : α → Except ε β
  write : β → σ → Except ε σ
  result : β → ρ

inductive Phase (ε α β ρ : Type) where
  | waiting
  | entered
  | hasRead (a : α)
  | computed (b : β)
  | written (r : ρ)
  | done (r : ρ)
  | failed (e : ε)

structure State (ι σ ε α β ρ : Type) where
  shared : σ
  owner : Option ι
  phase : ι → Phase ε α β ρ

variable {ι σ ε α β ρ : Type} [DecidableEq ι]

def Call.atomic (c : Call σ ε α β ρ) (s : σ) : Except ε (σ × ρ) :=
  match c.read s with
  | .error e => .error e
  | .ok a =>
    match c.compute a with
    | .error e => .error e
    | .ok b =>
      match c.write b s with
      | .error e => .error e
      | .ok s' => .ok (s', c.result b)

namespace State

def move (st : State ι σ ε α β ρ) (i : ι) (phase : Phase ε α β ρ) : State ι σ ε α β ρ :=
  { st with phase := Function.update st.phase i phase }

/-- Leaving the critical section, by return or by exception. -/
def leave (st : State ι σ ε α β ρ) (i : ι) (phase : Phase ε α β ρ) : State ι σ ε α β ρ :=
  { st with owner := none, phase := Function.update st.phase i phase }

@[simp] theorem move_self (st : State ι σ ε α β ρ) (i : ι) (phase : Phase ε α β ρ) :
    (st.move i phase).phase i = phase := Function.update_self ..

@[simp] theorem leave_self (st : State ι σ ε α β ρ) (i : ι) (phase : Phase ε α β ρ) :
    (st.leave i phase).phase i = phase := Function.update_self ..

theorem move_ne (st : State ι σ ε α β ρ) {i j : ι} (phase : Phase ε α β ρ) (ne : j ≠ i) :
    (st.move i phase).phase j = st.phase j := Function.update_of_ne ne ..

theorem leave_ne (st : State ι σ ε α β ρ) {i j : ι} (phase : Phase ε α β ρ) (ne : j ≠ i) :
    (st.leave i phase).phase j = st.phase j := Function.update_of_ne ne ..

end State

inductive Step (calls : ι → Call σ ε α β ρ) : State ι σ ε α β ρ → State ι σ ε α β ρ → Prop
  | enter {st} (i : ι) (waits : st.phase i = .waiting) (free : st.owner = none) :
      Step calls st ({ st with owner := some i }.move i .entered)
  | read {st a} (i : ι) (phase : st.phase i = .entered)
      (reads : (calls i).read st.shared = .ok a) : Step calls st (st.move i (.hasRead a))
  | readFails {st e} (i : ι) (phase : st.phase i = .entered)
      (fails : (calls i).read st.shared = .error e) : Step calls st (st.leave i (.failed e))
  | compute {st a b} (i : ι) (phase : st.phase i = .hasRead a)
      (computes : (calls i).compute a = .ok b) : Step calls st (st.move i (.computed b))
  | computeFails {st a e} (i : ι) (phase : st.phase i = .hasRead a)
      (fails : (calls i).compute a = .error e) : Step calls st (st.leave i (.failed e))
  | write {st b s'} (i : ι) (phase : st.phase i = .computed b)
      (writes : (calls i).write b st.shared = .ok s') :
      Step calls st ({ st with shared := s' }.move i (.written ((calls i).result b)))
  | writeFails {st b e} (i : ι) (phase : st.phase i = .computed b)
      (fails : (calls i).write b st.shared = .error e) : Step calls st (st.leave i (.failed e))
  | release {st r} (i : ι) (phase : st.phase i = .written r) :
      Step calls st (st.leave i (.done r))

/-- Every call waits, the lock is free. -/
def start (s : σ) : State ι σ ε α β ρ := ⟨s, none, fun _ => .waiting⟩

theorem atomic_cases {c : Call σ ε α β ρ} {s s' : σ} {r : ρ} (runs : c.atomic s = .ok (s', r)) :
    ∃ a b, c.read s = .ok a ∧ c.compute a = .ok b ∧ c.write b s = .ok s' ∧ r = c.result b := by
  unfold Call.atomic at runs
  split at runs
  · cases runs
  · rename_i a reads
    split at runs
    · cases runs
    · rename_i b computes
      split at runs
      · cases runs
      · rename_i s'' writes
        cases runs
        exact ⟨a, b, reads, computes, writes, rfl⟩

/-- A waiting call can run to its end while the lock is free. -/
theorem run_call (calls : ι → Call σ ε α β ρ) (st : State ι σ ε α β ρ) (i : ι)
    (free : st.owner = none) (waits : st.phase i = .waiting) {s' : σ} {r : ρ}
    (runs : (calls i).atomic st.shared = .ok (s', r)) :
    Relation.ReflTransGen (Step calls) st ⟨s', none, Function.update st.phase i (.done r)⟩ := by
  obtain ⟨a, b, reads, computes, writes, rfl⟩ := atomic_cases runs
  let inside := { st with owner := some i }.move i (.entered : Phase ε α β ρ)
  let known := inside.move i (.hasRead a)
  let ready := known.move i (.computed b)
  let after := { ready with shared := s' }.move i (.written ((calls i).result b))
  have entered : Step calls st inside := .enter i waits free
  have hasRead : Step calls inside known := .read i (State.move_self ..) reads
  have computed : Step calls known ready := .compute i (State.move_self ..) computes
  have written : Step calls ready after := .write i (State.move_self ..) writes
  have released : Step calls after (after.leave i (.done ((calls i).result b))) :=
    .release i (State.move_self ..)
  have steps := ((((Relation.ReflTransGen.single entered).tail hasRead).tail computed).tail
    written).tail released
  simpa [after, ready, known, inside, State.move, State.leave, Function.update_idem] using steps

/-- Calls run one after the other from `init`, with what each returned or raised. -/
inductive Serial (calls : ι → Call σ ε α β ρ) (init : σ) : List (ι × Except ε ρ) → σ → Prop
  | nil : Serial calls init [] init
  | returned {history s i s' r} (before : Serial calls init history s)
      (runs : (calls i).atomic s = .ok (s', r)) :
      Serial calls init (history ++ [(i, .ok r)]) s'
  | raised {history s i e} (before : Serial calls init history s)
      (runs : (calls i).atomic s = .error e) :
      Serial calls init (history ++ [(i, .error e)]) s

/-- A call outside the lock: not yet started, or in the history with its outcome. -/
def Settled (history : List (ι × Except ε ρ)) (i : ι) : Phase ε α β ρ → Prop
  | .waiting => i ∉ history.map Prod.fst
  | .done r => (i, .ok r) ∈ history
  | .failed e => (i, .error e) ∈ history
  | _ => False

/-- The call that holds the lock, which it took when the shared state was `s`. -/
def Running (c : Call σ ε α β ρ) (s shared : σ) : Phase ε α β ρ → Prop
  | .entered => shared = s
  | .hasRead a => shared = s ∧ c.read s = .ok a
  | .computed b => shared = s ∧ ∃ a, c.read s = .ok a ∧ c.compute a = .ok b
  | .written r => c.atomic s = .ok (shared, r)
  | _ => False

structure Invariant (calls : ι → Call σ ε α β ρ) (init : σ) (st : State ι σ ε α β ρ)
    (history : List (ι × Except ε ρ)) (s : σ) : Prop where
  serial : Serial calls init history s
  nodup : (history.map Prod.fst).Nodup
  others : ∀ j, st.owner ≠ some j → Settled history j (st.phase j)
  free : st.owner = none → st.shared = s
  holder : ∀ i, st.owner = some i →
    i ∉ history.map Prod.fst ∧ Running (calls i) s st.shared (st.phase i)

variable {calls : ι → Call σ ε α β ρ} {init : σ} {st : State ι σ ε α β ρ}
  {history : List (ι × Except ε ρ)} {s : σ}

omit [DecidableEq ι] in
theorem invariant_start (calls : ι → Call σ ε α β ρ) (init : σ) :
    Invariant calls init (start init) [] init where
  serial := .nil
  nodup := List.nodup_nil
  others _ _ := List.not_mem_nil
  free _ := rfl
  holder _ held := nomatch held

/-- A call in a phase of the lock holds it. -/
theorem Invariant.running (inv : Invariant calls init st history s) {i : ι}
    {phase : Phase ε α β ρ} (here : st.phase i = phase)
    (inside : ∀ h : List (ι × Except ε ρ), ¬Settled h i phase) :
    st.owner = some i ∧ Running (calls i) s st.shared phase := by
  have held : st.owner = some i := by
    by_contra outside
    exact inside history (here ▸ inv.others i outside)
  exact ⟨held, here ▸ (inv.holder i held).2⟩

omit [DecidableEq ι] in
theorem Settled.snoc {i j : ι} {phase : Phase ε α β ρ} (settled : Settled history j phase)
    (ne : j ≠ i) (outcome : Except ε ρ) : Settled (history ++ [(i, outcome)]) j phase := by
  cases phase with
  | waiting =>
    intro member
    rw [List.map_append, List.mem_append] at member
    rcases member with old | new
    · exact settled old
    · exact ne (List.mem_singleton.mp new)
  | done r => exact List.mem_append_left _ settled
  | failed e => exact List.mem_append_left _ settled
  | entered => exact settled
  | hasRead a => exact settled
  | computed b => exact settled
  | written r => exact settled

/-- A step inside the lock that stays inside. -/
theorem Invariant.inside (inv : Invariant calls init st history s) {i : ι}
    (held : st.owner = some i) {shared : σ} {phase : Phase ε α β ρ}
    (runs : Running (calls i) s shared phase) :
    Invariant calls init ({ st with shared := shared }.move i phase) history s where
  serial := inv.serial
  nodup := inv.nodup
  others j outside := by
    have ne : j ≠ i := by
      rintro rfl
      exact outside held
    rw [State.move_ne _ _ ne]
    exact inv.others j outside
  free unheld := by
    have unheld' : st.owner = none := unheld
    rw [held] at unheld'
    cases unheld'
  holder j holds := by
    have same : i = j := Option.some.inj (held.symm.trans holds)
    subst same
    refine ⟨(inv.holder i held).1, ?_⟩
    rw [State.move_self]
    exact runs

/-- Leaving the lock extends the serial history by the call's outcome. -/
theorem Invariant.leave (inv : Invariant calls init st history s) {i : ι}
    (held : st.owner = some i) {phase : Phase ε α β ρ} {outcome : Except ε ρ}
    (serial : Serial calls init (history ++ [(i, outcome)]) st.shared)
    (settled : ∀ h, (i, outcome) ∈ h → Settled h i phase) :
    Invariant calls init (st.leave i phase) (history ++ [(i, outcome)]) st.shared where
  serial := serial
  nodup := by
    rw [List.map_append, List.nodup_append]
    refine ⟨inv.nodup, List.nodup_singleton _, ?_⟩
    intro a old b new same
    rw [List.mem_singleton.mp new] at same
    rw [same] at old
    exact (inv.holder i held).1 old
  others j _ := by
    by_cases same : j = i
    · subst same
      rw [State.leave_self]
      exact settled _ (List.mem_append_right _ List.mem_cons_self)
    · rw [State.leave_ne _ _ same]
      refine (inv.others j ?_).snoc same outcome
      intro holds
      exact same (Option.some.inj (holds.symm.trans held))
  free _ := rfl
  holder _ holds := nomatch holds

/-- A waiting call takes the free lock. -/
theorem Invariant.enter (inv : Invariant calls init st history s) {i : ι}
    (waits : st.phase i = .waiting) (free : st.owner = none) :
    Invariant calls init ({ st with owner := some i }.move i .entered) history s where
  serial := inv.serial
  nodup := inv.nodup
  others j outside := by
    have ne : j ≠ i := by
      rintro rfl
      exact outside rfl
    rw [State.move_ne _ _ ne]
    exact inv.others j (by rw [free]; exact fun h => nomatch h)
  free unheld := nomatch unheld
  holder j holds := by
    have same : i = j := Option.some.inj holds
    subst same
    have unstarted := inv.others i (by rw [free]; exact fun h => nomatch h)
    rw [waits] at unstarted
    refine ⟨unstarted, ?_⟩
    rw [State.move_self]
    exact inv.free free

theorem invariant_step (inv : Invariant calls init st history s) {st' : State ι σ ε α β ρ}
    (step : Step calls st st') : ∃ history' s', Invariant calls init st' history' s' := by
  cases step with
  | enter i waits free => exact ⟨history, s, inv.enter waits free⟩
  | read i phase reads =>
    obtain ⟨held, running⟩ := inv.running phase fun _ h => h
    exact ⟨history, s, inv.inside held ⟨running, running ▸ reads⟩⟩
  | readFails i phase fails =>
    obtain ⟨held, running⟩ := inv.running phase fun _ h => h
    have same : st.shared = s := running
    refine ⟨_, _, inv.leave held ?_ (fun _ member => member)⟩
    rw [same] at fails ⊢
    exact .raised inv.serial (by simp only [Call.atomic, fails])
  | compute i phase computes =>
    obtain ⟨held, same, reads⟩ := inv.running phase fun _ h => h
    exact ⟨history, s, inv.inside held ⟨same, _, reads, computes⟩⟩
  | computeFails i phase fails =>
    obtain ⟨held, same, reads⟩ := inv.running phase fun _ h => h
    refine ⟨_, _, inv.leave held ?_ (fun _ member => member)⟩
    rw [same]
    exact .raised inv.serial (by simp only [Call.atomic, reads, fails])
  | write i phase writes =>
    obtain ⟨held, same, a, reads, computes⟩ := inv.running phase fun _ h => h
    rw [same] at writes
    refine ⟨history, s, inv.inside held ?_⟩
    simp only [Running, Call.atomic, reads, computes, writes]
  | writeFails i phase fails =>
    obtain ⟨held, same, a, reads, computes⟩ := inv.running phase fun _ h => h
    refine ⟨_, _, inv.leave held ?_ (fun _ member => member)⟩
    rw [same] at fails ⊢
    exact .raised inv.serial (by simp only [Call.atomic, reads, computes, fails])
  | release i phase =>
    obtain ⟨held, running⟩ := inv.running phase fun _ h => h
    exact ⟨_, _, inv.leave held (.returned inv.serial running) (fun _ member => member)⟩

theorem invariant_reachable {st : State ι σ ε α β ρ}
    (reach : Relation.ReflTransGen (Step calls) (start init) st) :
    ∃ history s, Invariant calls init st history s := by
  induction reach with
  | refl => exact ⟨[], init, invariant_start calls init⟩
  | tail _ step ih =>
    obtain ⟨history, s, inv⟩ := ih
    exact invariant_step inv step

/-- Every call has returned or raised. -/
def State.Finished (st : State ι σ ε α β ρ) : Prop :=
  ∀ i, (∃ r, st.phase i = .done r) ∨ ∃ e, st.phase i = .failed e

/-- Any interleaving in which every call finishes is a serial run of all the calls. -/
theorem serial_of_finished {st : State ι σ ε α β ρ}
    (reach : Relation.ReflTransGen (Step calls) (start init) st) (finished : st.Finished) :
    ∃ history, Serial calls init history st.shared ∧ (history.map Prod.fst).Nodup ∧
      ∀ i, (∀ r, st.phase i = .done r → (i, .ok r) ∈ history) ∧
        (∀ e, st.phase i = .failed e → (i, .error e) ∈ history) := by
  obtain ⟨history, s, inv⟩ := invariant_reachable reach
  have free : st.owner = none := by
    cases held : st.owner with
    | none => rfl
    | some i =>
      have running := (inv.holder i held).2
      rcases finished i with ⟨r, phase⟩ | ⟨e, phase⟩ <;> rw [phase] at running <;>
        exact running.elim
  refine ⟨history, inv.free free ▸ inv.serial, inv.nodup, fun i => ?_⟩
  have settled := inv.others i (by rw [free]; exact fun h => nomatch h)
  constructor
  · intro r phase
    rwa [phase] at settled
  · intro e phase
    rwa [phase] at settled

end CriticalSection
