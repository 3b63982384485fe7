import Mathlib.Logic.Relation
import Mathlib.Logic.Function.Basic
import Mathlib.Data.List.Nodup

/-!
Transactions that read a shared state, draw a ticket and write at their commit.
A session runs one transaction at a time and holds the locks it takes until that
transaction ends; a transaction reads after it has taken the lock of its key. When
writes under other locks leave what a transaction reads, any interleaving is the
serial run of the committed transactions, in the order of their commits.
-/
namespace KeyedTransactions

/-- One transaction of a session, between its preparation and its result. -/
structure Call (δ l σ ε π α β ρ : Type) where
  session : δ
  prepare : Except ε π
  lock : l
  read : σ → α
  compute : π → α → Except ε β
  write : β → Nat → σ → σ
  result : β → ρ

inductive Phase (π α β ρ : Type) where
  | waiting
  | entered (p : π)
  | locked (p : π)
  | hasRead (p : π) (a : α)
  | drawn (b : β) (ticket : Nat)
  | committed (r : ρ)
  | returned (r : ρ)
  | failed

structure State (ι δ l σ π α β ρ : Type) where
  shared : σ
  next : Nat
  inside : δ → Option ι
  holder : l → Option δ
  phase : ι → Phase π α β ρ

variable {ι δ l σ ε π α β ρ : Type}

/-- The transaction is open: its session is inside, and nothing is committed. -/
def Phase.Open : Phase π α β ρ → Prop
  | .entered _ | .locked _ | .hasRead _ _ | .drawn _ _ => True
  | _ => False

/-- The transaction has its lock. -/
def Phase.Holds : Phase π α β ρ → Prop
  | .locked _ | .hasRead _ _ | .drawn _ _ => True
  | _ => False

/-- The session is inside. -/
def Phase.Inside : Phase π α β ρ → Prop
  | .committed _ => True
  | phase => phase.Open

def Phase.result? : Phase π α β ρ → Option ρ
  | .committed r | .returned r => some r
  | _ => none

namespace State

def move [DecidableEq ι] (st : State ι δ l σ π α β ρ) (i : ι) (phase : Phase π α β ρ) :
    State ι δ l σ π α β ρ :=
  { st with phase := Function.update st.phase i phase }

/-- The session enters, or leaves. -/
def occupy [DecidableEq δ] (st : State ι δ l σ π α β ρ) (d : δ) (i : Option ι) :
    State ι δ l σ π α β ρ :=
  { st with inside := Function.update st.inside d i }

def take [DecidableEq l] (st : State ι δ l σ π α β ρ) (k : l) (d : δ) :
    State ι δ l σ π α β ρ :=
  { st with holder := Function.update st.holder k (some d) }

/-- The locks of a session are released together. -/
def release [DecidableEq δ] (st : State ι δ l σ π α β ρ) (d : δ) : State ι δ l σ π α β ρ :=
  { st with holder := fun k => if st.holder k = some d then none else st.holder k }

@[simp] theorem move_self [DecidableEq ι] (st : State ι δ l σ π α β ρ) (i : ι)
    (phase : Phase π α β ρ) :
    (st.move i phase).phase i = phase := Function.update_self ..

theorem move_ne [DecidableEq ι] (st : State ι δ l σ π α β ρ) {i j : ι}
    (phase : Phase π α β ρ) (ne : j ≠ i) :
    (st.move i phase).phase j = st.phase j := Function.update_of_ne ne ..

end State

section
variable [DecidableEq ι] [DecidableEq δ] [DecidableEq l]

inductive Step (calls : ι → Call δ l σ ε π α β ρ) :
    State ι δ l σ π α β ρ → State ι δ l σ π α β ρ → Prop
  | refuse {st e} (i : ι) (waits : st.phase i = .waiting)
      (fails : (calls i).prepare = .error e) : Step calls st (st.move i .failed)
  | enter {st p} (i : ι) (waits : st.phase i = .waiting) (ready : (calls i).prepare = .ok p)
      (free : st.inside (calls i).session = none) :
      Step calls st ((st.occupy (calls i).session (some i)).move i (.entered p))
  | lock {st p} (i : ι) (phase : st.phase i = .entered p)
      (free : st.holder (calls i).lock = none ∨
        st.holder (calls i).lock = some (calls i).session) :
      Step calls st ((st.take (calls i).lock (calls i).session).move i (.locked p))
  | read {st p} (i : ι) (phase : st.phase i = .locked p) :
      Step calls st (st.move i (.hasRead p ((calls i).read st.shared)))
  | draw {st p a b} (i : ι) (phase : st.phase i = .hasRead p a)
      (computes : (calls i).compute p a = .ok b) :
      Step calls st ({ st with next := st.next + 1 }.move i (.drawn b st.next))
  | commit {st b n} (i : ι) (phase : st.phase i = .drawn b n) :
      Step calls st (({ st with shared := (calls i).write b n st.shared }.release
        (calls i).session).move i (.committed ((calls i).result b)))
  | rollback {st} (i : ι) (opened : (st.phase i).Open) :
      Step calls st (((st.release (calls i).session).occupy (calls i).session none).move i .failed)
  | leave {st r} (i : ι) (phase : st.phase i = .committed r) :
      Step calls st ((st.occupy (calls i).session none).move i (.returned r))

end

def start (s : σ) : State ι δ l σ π α β ρ := ⟨s, 1, fun _ => none, fun _ => none, fun _ => .waiting⟩

/-- Writes under another lock leave what the call reads. -/
def Independent (calls : ι → Call δ l σ ε π α β ρ) : Prop :=
  ∀ i j, (calls i).lock ≠ (calls j).lock →
    ∀ b n s, (calls i).read ((calls j).write b n s) = (calls i).read s

/-- A commit: the call, its ticket and what it wrote. -/
structure Commit (ι β : Type) where
  call : ι
  ticket : Nat
  wrote : β

/-- What the call writes when it runs alone. -/
def Call.runs (c : Call δ l σ ε π α β ρ) (s : σ) (b : β) : Prop :=
  ∃ p, c.prepare = .ok p ∧ c.compute p (c.read s) = .ok b

/-- Transactions one after the other from `init`. -/
inductive Serial (calls : ι → Call δ l σ ε π α β ρ) (init : σ) : List (Commit ι β) → σ → Prop
  | nil : Serial calls init [] init
  | snoc {history s} (before : Serial calls init history s) (c : Commit ι β)
      (runs : (calls c.call).runs s c.wrote) :
      Serial calls init (history ++ [c]) ((calls c.call).write c.wrote c.ticket s)

/-- What a phase says of its call. -/
def Settled (calls : ι → Call δ l σ ε π α β ρ) (history : List (Commit ι β)) (s : σ) (next : Nat)
    (i : ι) : Phase π α β ρ → Prop
  | .waiting | .failed => ∀ c ∈ history, c.call ≠ i
  | .entered p | .locked p => (∀ c ∈ history, c.call ≠ i) ∧ (calls i).prepare = .ok p
  | .hasRead p a =>
    (∀ c ∈ history, c.call ≠ i) ∧ (calls i).prepare = .ok p ∧ a = (calls i).read s
  | .drawn b n => (∀ c ∈ history, c.call ≠ i) ∧ (calls i).runs s b ∧ n < next ∧
    ∀ c ∈ history, c.ticket ≠ n ∧ ((calls c.call).lock = (calls i).lock → c.ticket < n)
  | .committed r | .returned r => ∃ c ∈ history, c.call = i ∧ (calls i).result c.wrote = r

structure Invariant (calls : ι → Call δ l σ ε π α β ρ) (init : σ) (st : State ι δ l σ π α β ρ)
    (history : List (Commit ι β)) : Prop where
  serial : Serial calls init history st.shared
  once : (history.map Commit.call).Nodup
  tickets : (history.map Commit.ticket).Nodup
  below : ∀ c ∈ history, c.ticket < st.next
  ordered : history.Pairwise fun c c' =>
    (calls c.call).lock = (calls c'.call).lock → c.ticket < c'.ticket
  inside : ∀ i, (st.phase i).Inside → st.inside (calls i).session = some i
  holds : ∀ i, (st.phase i).Holds → st.holder (calls i).lock = some (calls i).session
  settled : ∀ i, Settled calls history st.shared st.next i (st.phase i)
  apart : ∀ i j b b' n, st.phase i = .drawn b n → st.phase j = .drawn b' n → i = j

theorem Phase.Open.inside {phase : Phase π α β ρ} (opened : phase.Open) : phase.Inside := by
  cases phase with
  | committed r => trivial
  | waiting => exact opened
  | entered p => exact opened
  | locked p => exact opened
  | hasRead p a => exact opened
  | drawn b n => exact opened
  | returned r => exact opened
  | failed => exact opened

theorem Phase.Holds.opened {phase : Phase π α β ρ} (holds : phase.Holds) : phase.Open := by
  cases phase with
  | entered p => trivial
  | locked p => trivial
  | hasRead p a => trivial
  | drawn b n => trivial
  | waiting => exact holds
  | committed r => exact holds
  | returned r => exact holds
  | failed => exact holds

variable {calls : ι → Call δ l σ ε π α β ρ} {init : σ} {st st' : State ι δ l σ π α β ρ}
  {history : List (Commit ι β)}

theorem invariant_start (calls : ι → Call δ l σ ε π α β ρ) (init : σ) :
    Invariant calls init (start init) [] where
  serial := .nil
  once := List.nodup_nil
  tickets := List.nodup_nil
  below _ member := nomatch member
  ordered := .nil
  inside _ inside := inside.elim
  holds _ holds := holds.elim
  settled _ _ member := nomatch member
  apart _ _ _ _ _ drawn := nomatch drawn

/-- A session is inside one call. -/
theorem Invariant.same_session (inv : Invariant calls init st history) {i j : ι}
    (one : (st.phase i).Inside) (other : (st.phase j).Inside)
    (same : (calls i).session = (calls j).session) : i = j := by
  have first := inv.inside i one
  rw [same, inv.inside j other] at first
  exact (Option.some.inj first).symm

/-- Two calls that hold one lock are the same call. -/
theorem Invariant.same_lock (inv : Invariant calls init st history) {i j : ι}
    (one : (st.phase i).Holds) (other : (st.phase j).Holds)
    (same : (calls i).lock = (calls j).lock) : i = j := by
  have first := inv.holds i one
  rw [same, inv.holds j other] at first
  exact inv.same_session one.opened.inside other.opened.inside (Option.some.inj first).symm

theorem Settled.later {s : σ} {n n' : Nat} {i : ι} {phase : Phase π α β ρ}
    (settled : Settled calls history s n i phase) (le : n ≤ n') :
    Settled calls history s n' i phase := by
  cases phase with
  | drawn b ticket =>
    obtain ⟨absent, runs, drawn, fresh⟩ := settled
    exact ⟨absent, runs, by omega, fresh⟩
  | waiting => exact settled
  | entered p => exact settled
  | locked p => exact settled
  | hasRead p a => exact settled
  | committed r => exact settled
  | returned r => exact settled
  | failed => exact settled

/-- A commit of another call, under another lock if this one holds its own. -/
theorem Settled.afterCommit {s : σ} {next : Nat} {i : ι} {phase : Phase π α β ρ}
    (settled : Settled calls history s next i phase) (independent : Independent calls)
    (c : Commit ι β) (ne : c.call ≠ i)
    (other : phase.Holds → (calls i).lock ≠ (calls c.call).lock)
    (fresh : ∀ b n, phase = .drawn b n → c.ticket ≠ n) :
    Settled calls (history ++ [c]) ((calls c.call).write c.wrote c.ticket s) next i phase := by
  have absent : (∀ c ∈ history, c.call ≠ i) → ∀ c' ∈ history ++ [c], c'.call ≠ i := by
    intro before c' member
    rcases List.mem_append.mp member with old | new
    · exact before c' old
    · rw [List.mem_singleton.mp new]
      exact ne
  have kept : phase.Holds →
      (calls i).read ((calls c.call).write c.wrote c.ticket s) = (calls i).read s :=
    fun holds => independent i c.call (other holds) _ _ _
  cases phase with
  | waiting => exact absent settled
  | failed => exact absent settled
  | entered p => exact ⟨absent settled.1, settled.2⟩
  | locked p => exact ⟨absent settled.1, settled.2⟩
  | hasRead p a =>
    obtain ⟨before, ready, read⟩ := settled
    exact ⟨absent before, ready, read.trans (kept trivial).symm⟩
  | drawn b n =>
    obtain ⟨before, ⟨p, ready, computes⟩, drawn, tickets⟩ := settled
    refine ⟨absent before, ⟨p, ready, ?_⟩, drawn, ?_⟩
    · rw [kept trivial]
      exact computes
    · intro c' member
      rcases List.mem_append.mp member with old | new
      · exact tickets c' old
      · rw [List.mem_singleton.mp new]
        exact ⟨fresh b n rfl, fun same => absurd same.symm (other trivial)⟩
  | committed r =>
    obtain ⟨c', member, facts⟩ := settled
    exact ⟨c', List.mem_append_left _ member, facts⟩
  | returned r =>
    obtain ⟨c', member, facts⟩ := settled
    exact ⟨c', List.mem_append_left _ member, facts⟩

theorem Invariant.ended (inv : Invariant calls init st history) {i : ι}
    (opened : (st.phase i).Open) : ∀ c ∈ history, c.call ≠ i := by
  have settled := inv.settled i
  cases phase : st.phase i with
  | entered p => rw [phase] at settled; exact settled.1
  | locked p => rw [phase] at settled; exact settled.1
  | hasRead p a => rw [phase] at settled; exact settled.1
  | drawn b n => rw [phase] at settled; exact settled.1
  | waiting => rw [phase] at opened; exact opened.elim
  | committed r => rw [phase] at opened; exact opened.elim
  | returned r => rw [phase] at opened; exact opened.elim
  | failed => rw [phase] at opened; exact opened.elim

section
variable [DecidableEq ι] [DecidableEq δ] [DecidableEq l]

omit [DecidableEq δ] [DecidableEq l] in
/-- A step of `i` that commits nothing. -/
theorem Invariant.moved (inv : Invariant calls init st history) {i : ι} {phase : Phase π α β ρ}
    (shared : st'.shared = st.shared) (next : st.next ≤ st'.next)
    (others : st'.phase = st.phase)
    (inside : ∀ j, (Function.update st.phase i phase j).Inside →
      st'.inside (calls j).session = some j)
    (holds : ∀ j, (Function.update st.phase i phase j).Holds →
      st'.holder (calls j).lock = some (calls j).session)
    (settled : Settled calls history st.shared st'.next i phase)
    (fresh : ∀ b n, phase = .drawn b n → ∀ j b', j ≠ i → st.phase j ≠ .drawn b' n) :
    Invariant calls init (st'.move i phase) history where
  serial := shared ▸ inv.serial
  once := inv.once
  tickets := inv.tickets
  below c member := Nat.lt_of_lt_of_le (inv.below c member) next
  ordered := inv.ordered
  inside j own := by
    rw [State.move, others] at own
    exact inside j own
  holds j own := by
    rw [State.move, others] at own
    exact holds j own
  settled j := by
    by_cases same : j = i
    · subst same
      rw [State.move_self]
      exact shared ▸ settled
    · rw [State.move_ne _ _ same, others]
      exact shared ▸ (inv.settled j).later next
  apart j k b b' n first second := by
    by_cases here : j = i
    · by_cases there : k = i
      · exact here.trans there.symm
      · rw [here, State.move_self] at first
        rw [State.move_ne _ _ there, others] at second
        exact absurd second (fresh b n first k b' there)
    · rw [State.move_ne _ _ here, others] at first
      by_cases there : k = i
      · rw [there, State.move_self] at second
        exact absurd first (fresh b' n second j b here)
      · rw [State.move_ne _ _ there, others] at second
        exact inv.apart j k b b' n first second

omit [DecidableEq δ] [DecidableEq l] in
/-- The sessions stay as they were. -/
theorem Invariant.inside_kept (inv : Invariant calls init st history) {i : ι}
    {phase : Phase π α β ρ} (own : phase.Inside → (st.phase i).Inside) (j : ι)
    (inside : (Function.update st.phase i phase j).Inside) :
    st.inside (calls j).session = some j := by
  by_cases same : j = i
  · subst same
    rw [Function.update_self] at inside
    exact inv.inside j (own inside)
  · rw [Function.update_of_ne same] at inside
    exact inv.inside j inside

omit [DecidableEq δ] [DecidableEq l] in
/-- The locks stay as they were. -/
theorem Invariant.holds_kept (inv : Invariant calls init st history) {i : ι}
    {phase : Phase π α β ρ} (own : phase.Holds → (st.phase i).Holds) (j : ι)
    (holds : (Function.update st.phase i phase j).Holds) :
    st.holder (calls j).lock = some (calls j).session := by
  by_cases same : j = i
  · subst same
    rw [Function.update_self] at holds
    exact inv.holds j (own holds)
  · rw [Function.update_of_ne same] at holds
    exact inv.holds j holds

omit [DecidableEq l] in
/-- The session of `i` is free or left, and nothing of `i` stays inside. -/
theorem Invariant.inside_left (inv : Invariant calls init st history) {i : ι}
    (was : (st.phase i).Inside) {phase : Phase π α β ρ} (left : ¬phase.Inside) (j : ι)
    (inside : (Function.update st.phase i phase j).Inside) :
    Function.update st.inside (calls i).session none (calls j).session = some j := by
  have ne : j ≠ i := by
    rintro rfl
    rw [Function.update_self] at inside
    exact left inside
  rw [Function.update_of_ne ne] at inside
  have apart : (calls j).session ≠ (calls i).session := fun same =>
    ne (inv.same_session inside was same)
  rw [Function.update_of_ne apart]
  exact inv.inside j inside

omit [DecidableEq l] in
/-- The session of `i` has released its locks. -/
theorem Invariant.holds_released (inv : Invariant calls init st history) {i : ι}
    (opened : (st.phase i).Open) {phase : Phase π α β ρ} (ended : ¬phase.Holds) (j : ι)
    (holds : (Function.update st.phase i phase j).Holds) :
    (if st.holder (calls j).lock = some (calls i).session then none
      else st.holder (calls j).lock) = some (calls j).session := by
  have ne : j ≠ i := by
    rintro rfl
    rw [Function.update_self] at holds
    exact ended holds
  rw [Function.update_of_ne ne] at holds
  have held := inv.holds j holds
  have apart : (calls j).session ≠ (calls i).session := fun same =>
    ne (inv.same_session holds.opened.inside opened.inside same)
  rw [held, if_neg fun same => apart (Option.some.inj same)]

omit [DecidableEq l] in
theorem Invariant.enter (inv : Invariant calls init st history) {i : ι} {p : π}
    (waits : st.phase i = .waiting) (ready : (calls i).prepare = .ok p)
    (free : st.inside (calls i).session = none) :
    Invariant calls init ((st.occupy (calls i).session (some i)).move i (.entered p)) history := by
  have settled := inv.settled i
  rw [waits] at settled
  refine inv.moved rfl (Nat.le_refl _) rfl ?_ ?_ ?_ (fun _ _ drawn => nomatch drawn)
  · intro j inside
    by_cases same : j = i
    · subst same
      exact Function.update_self ..
    · rw [Function.update_of_ne same] at inside
      have occupied := inv.inside j inside
      have apart : (calls j).session ≠ (calls i).session := by
        intro same
        rw [same, free] at occupied
        cases occupied
      exact (Function.update_of_ne apart ..).trans occupied
  · exact inv.holds_kept (fun holds => holds.elim)
  · exact ⟨settled, ready⟩

omit [DecidableEq δ] in
theorem Invariant.lock (inv : Invariant calls init st history) {i : ι} {p : π}
    (phase : st.phase i = .entered p)
    (free : st.holder (calls i).lock = none ∨
      st.holder (calls i).lock = some (calls i).session) :
    Invariant calls init ((st.take (calls i).lock (calls i).session).move i (.locked p))
      history := by
  have settled := inv.settled i
  rw [phase] at settled
  have entered : (st.phase i).Inside := by
    rw [phase]
    trivial
  refine inv.moved rfl (Nat.le_refl _) rfl ?_ ?_ ?_ (fun _ _ drawn => nomatch drawn)
  · exact inv.inside_kept (fun _ => entered)
  · intro j holds
    by_cases same : j = i
    · subst same
      exact Function.update_self ..
    · rw [Function.update_of_ne same] at holds
      have held := inv.holds j holds
      have apart : (calls j).lock ≠ (calls i).lock := by
        intro shared
        rw [shared] at held
        rcases free with unheld | own
        · rw [unheld] at held
          cases held
        · rw [own] at held
          exact same (inv.same_session holds.opened.inside entered (Option.some.inj held).symm)
      exact (Function.update_of_ne apart ..).trans held
  · exact settled

omit [DecidableEq δ] [DecidableEq l] in
theorem Invariant.read (inv : Invariant calls init st history) {i : ι} {p : π}
    (phase : st.phase i = .locked p) :
    Invariant calls init (st.move i (.hasRead p ((calls i).read st.shared))) history := by
  have settled := inv.settled i
  rw [phase] at settled
  refine inv.moved rfl (Nat.le_refl _) rfl ?_ ?_ ?_ (fun _ _ drawn => nomatch drawn)
  · exact inv.inside_kept (fun _ => by rw [phase]; trivial)
  · exact inv.holds_kept (fun _ => by rw [phase]; trivial)
  · exact ⟨settled.1, settled.2, rfl⟩

omit [DecidableEq δ] [DecidableEq l] in
theorem Invariant.draw (inv : Invariant calls init st history) {i : ι} {p : π} {a : α} {b : β}
    (phase : st.phase i = .hasRead p a) (computes : (calls i).compute p a = .ok b) :
    Invariant calls init ({ st with next := st.next + 1 }.move i (.drawn b st.next)) history := by
  have settled := inv.settled i
  rw [phase] at settled
  obtain ⟨absent, ready, read⟩ := settled
  refine inv.moved rfl (Nat.le_succ _) rfl ?_ ?_ ?_ ?_
  · exact inv.inside_kept (fun _ => by rw [phase]; trivial)
  · exact inv.holds_kept (fun _ => by rw [phase]; trivial)
  · refine ⟨absent, ⟨p, ready, read ▸ computes⟩, Nat.lt_succ_self _, fun c member => ?_⟩
    have below := inv.below c member
    exact ⟨by omega, fun _ => below⟩
  · intro b' n drawn j b'' ne other
    cases drawn
    have drawn := inv.settled j
    rw [other] at drawn
    exact Nat.lt_irrefl _ drawn.2.2.1

omit [DecidableEq l] in
theorem Invariant.rollback (inv : Invariant calls init st history) {i : ι}
    (opened : (st.phase i).Open) :
    Invariant calls init
      (((st.release (calls i).session).occupy (calls i).session none).move i .failed)
      history := by
  refine inv.moved rfl (Nat.le_refl _) rfl ?_ ?_ ?_ (fun _ _ drawn => nomatch drawn)
  · exact inv.inside_left opened.inside (fun inside => inside)
  · exact inv.holds_released opened (fun holds => holds)
  · exact inv.ended opened

omit [DecidableEq l] in
theorem Invariant.leave (inv : Invariant calls init st history) {i : ι} {r : ρ}
    (phase : st.phase i = .committed r) :
    Invariant calls init ((st.occupy (calls i).session none).move i (.returned r)) history := by
  have settled := inv.settled i
  rw [phase] at settled
  refine inv.moved rfl (Nat.le_refl _) rfl ?_ ?_ ?_ (fun _ _ drawn => nomatch drawn)
  · exact inv.inside_left (by rw [phase]; trivial) (fun inside => inside)
  · exact inv.holds_kept (fun holds => holds.elim)
  · exact settled

omit [DecidableEq δ] [DecidableEq l] in
theorem Invariant.refuse (inv : Invariant calls init st history) {i : ι}
    (waits : st.phase i = .waiting) : Invariant calls init (st.move i .failed) history := by
  have settled := inv.settled i
  rw [waits] at settled
  refine inv.moved rfl (Nat.le_refl _) rfl ?_ ?_ ?_ (fun _ _ drawn => nomatch drawn)
  · exact inv.inside_kept (fun inside => inside.elim)
  · exact inv.holds_kept (fun holds => holds.elim)
  · exact settled

omit [DecidableEq l] in
theorem Invariant.commit (independent : Independent calls) (inv : Invariant calls init st history)
    {i : ι} {b : β} {n : Nat} (phase : st.phase i = .drawn b n) :
    Invariant calls init (({ st with shared := (calls i).write b n st.shared }.release
      (calls i).session).move i (.committed ((calls i).result b))) (history ++ [⟨i, n, b⟩]) := by
  have settled := inv.settled i
  rw [phase] at settled
  obtain ⟨absent, runs, below, tickets⟩ := settled
  have opened : (st.phase i).Open := by
    rw [phase]
    trivial
  have holding : (st.phase i).Holds := by
    rw [phase]
    trivial
  exact {
    serial := inv.serial.snoc ⟨i, n, b⟩ runs
    once := by
      rw [List.map_append, List.map_singleton, ← List.concat_eq_append, List.nodup_concat]
      refine ⟨fun member => ?_, inv.once⟩
      obtain ⟨c, old, same⟩ := List.mem_map.mp member
      exact absent c old same
    tickets := by
      rw [List.map_append, List.map_singleton, ← List.concat_eq_append, List.nodup_concat]
      refine ⟨fun member => ?_, inv.tickets⟩
      obtain ⟨c, old, same⟩ := List.mem_map.mp member
      exact (tickets c old).1 same
    below := by
      intro c member
      rcases List.mem_append.mp member with old | new
      · exact inv.below c old
      · rw [List.mem_singleton.mp new]
        exact below
    ordered := by
      rw [List.pairwise_append]
      refine ⟨inv.ordered, List.pairwise_singleton _ _, fun c member c' new => ?_⟩
      rw [List.mem_singleton.mp new]
      exact (tickets c member).2
    inside := inv.inside_kept (fun _ => opened.inside)
    holds := inv.holds_released opened (fun holds => holds)
    settled := by
      intro j
      by_cases same : j = i
      · subst same
        rw [State.move_self]
        exact ⟨⟨j, n, b⟩, List.mem_append_right _ List.mem_cons_self, rfl, rfl⟩
      · rw [State.move_ne _ _ same]
        refine (inv.settled j).afterCommit independent ⟨i, n, b⟩ (Ne.symm same) ?_ ?_
        · exact fun holds shared => same (inv.same_lock holds holding shared)
        · intro b' n' drawn equal
          have equal : n = n' := equal
          subst equal
          exact same (inv.apart j i b' b n drawn phase)
    apart := by
      intro j k b' b'' n' first second
      have drawn : ∀ {j b'}, Function.update st.phase i (.committed ((calls i).result b)) j =
          .drawn b' n' → st.phase j = .drawn b' n' := by
        intro j b' was
        by_cases same : j = i
        · subst same
          rw [Function.update_self] at was
          cases was
        · rwa [Function.update_of_ne same] at was
      exact inv.apart j k b' b'' n' (drawn first) (drawn second) }

theorem Invariant.step (independent : Independent calls) (inv : Invariant calls init st history)
    (step : Step calls st st') : ∃ history', Invariant calls init st' history' := by
  cases step with
  | refuse i waits _ => exact ⟨history, inv.refuse waits⟩
  | enter i waits ready free => exact ⟨history, inv.enter waits ready free⟩
  | lock i phase free => exact ⟨history, inv.lock phase free⟩
  | read i phase => exact ⟨history, inv.read phase⟩
  | draw i phase computes => exact ⟨history, inv.draw phase computes⟩
  | commit i phase => exact ⟨_, inv.commit independent phase⟩
  | rollback i opened => exact ⟨history, inv.rollback opened⟩
  | leave i phase => exact ⟨history, inv.leave phase⟩

/-- Any interleaving leaves a serial run of the committed calls. -/
theorem invariant_reachable (independent : Independent calls)
    (reach : Relation.ReflTransGen (Step calls) (start init) st) :
    ∃ history, Invariant calls init st history := by
  induction reach with
  | refl => exact ⟨[], invariant_start calls init⟩
  | tail _ step ih =>
    obtain ⟨history, inv⟩ := ih
    exact inv.step independent step

/-- The first call can run to its end. -/
theorem run_alone (calls : ι → Call δ l σ ε π α β ρ) (s : σ) (i : ι) {b : β}
    (runs : (calls i).runs s b) :
    ∃ st, Relation.ReflTransGen (Step calls) (start s) st ∧
      st.phase i = .returned ((calls i).result b) ∧ st.shared = (calls i).write b 1 s := by
  obtain ⟨p, ready, computes⟩ := runs
  let first : State ι δ l σ π α β ρ := start s
  let entered := (first.occupy (calls i).session (some i)).move i (.entered p)
  let locked := (entered.take (calls i).lock (calls i).session).move i (.locked p)
  let read := locked.move i (.hasRead p ((calls i).read s))
  let drawn := { read with next := 2 }.move i (.drawn b 1)
  let committed := ({ drawn with shared := (calls i).write b 1 s }.release (calls i).session).move
    i (.committed ((calls i).result b))
  let returned := (committed.occupy (calls i).session none).move
    i (.returned ((calls i).result b))
  have enters : Step calls first entered := .enter i rfl ready rfl
  have locks : Step calls entered locked := .lock i (State.move_self ..) (Or.inl rfl)
  have reads : Step calls locked read := .read i (State.move_self ..)
  have draws : Step calls read drawn := .draw i (State.move_self ..) computes
  have commits : Step calls drawn committed := .commit i (State.move_self ..)
  have leaves : Step calls committed returned := .leave i (State.move_self ..)
  have steps := (((((Relation.ReflTransGen.single enters).tail locks).tail reads).tail draws).tail
    commits).tail leaves
  exact ⟨returned, steps, State.move_self .., rfl⟩

end

theorem Serial.runs_of_mem {history : List (Commit ι β)} {s : σ}
    (serial : Serial calls init history s) {c : Commit ι β} (member : c ∈ history) :
    ∃ s', (calls c.call).runs s' c.wrote := by
  induction serial with
  | nil => cases member
  | snoc _ c' runs ih =>
    rcases List.mem_append.mp member with old | new
    · exact ih old
    · rw [List.mem_singleton.mp new]
      exact ⟨_, runs⟩

/-- The committed calls are those of the history, with the results they returned. -/
theorem Invariant.committed_iff (inv : Invariant calls init st history) (i : ι) (r : ρ) :
    (st.phase i).result? = some r ↔
      ∃ c ∈ history, c.call = i ∧ (calls i).result c.wrote = r := by
  have settled := inv.settled i
  have one : ∀ c ∈ history, ∀ c' ∈ history, c.call = c'.call → c = c' :=
    List.inj_on_of_nodup_map inv.once
  have uncommitted : (∀ c ∈ history, c.call ≠ i) →
      ((none : Option ρ) = some r ↔ ∃ c ∈ history, c.call = i ∧ (calls i).result c.wrote = r) := by
    intro absent
    constructor
    · intro impossible
      cases impossible
    · rintro ⟨c, member, same, _⟩
      exact absurd same (absent c member)
  have done : ∀ r' : ρ, (∃ c ∈ history, c.call = i ∧ (calls i).result c.wrote = r') →
      (some r' = some r ↔ ∃ c ∈ history, c.call = i ∧ (calls i).result c.wrote = r) := by
    rintro r' ⟨c, member, same, rfl⟩
    constructor
    · intro equal
      exact ⟨c, member, same, Option.some.inj equal⟩
    · rintro ⟨c', member', same', rfl⟩
      rw [one c member c' member' (same.trans same'.symm)]
  cases phase : st.phase i with
  | committed r' => rw [phase] at settled; exact done r' settled
  | returned r' => rw [phase] at settled; exact done r' settled
  | waiting => rw [phase] at settled; exact uncommitted settled
  | failed => rw [phase] at settled; exact uncommitted settled
  | entered p => rw [phase] at settled; exact uncommitted settled.1
  | locked p => rw [phase] at settled; exact uncommitted settled.1
  | hasRead p a => rw [phase] at settled; exact uncommitted settled.1
  | drawn b n => rw [phase] at settled; exact uncommitted settled.1

end KeyedTransactions
