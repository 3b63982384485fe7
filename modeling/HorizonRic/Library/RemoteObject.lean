import HorizonRic.Library.Machine
import Mathlib.Logic.Function.Basic

/-!
A server that handles one request at a time, and callers that reach it over a network.
A request stays on the wire for as long as the network pleases, or for ever; a caller
may give up while its request still stands and is handled later. Where all other writers
of a part of the server's state are done, one write either has not happened or has
happened once, and whoever has its answer knows which.
-/
namespace RemoteObject

/-- What became of the request of a call. -/
inductive Wire (α β : Type) where
  | idle
  | requested (q : α)
  | answered (a : β)

/-- What its caller has seen. -/
inductive Heard (β : Type) where
  | waiting
  | gaveUp
  | answer (a : β)

structure Net (ι σ α β : Type) where
  server : σ
  wire : ι → Wire α β
  heard : ι → Heard β

/-- The server handles a request with a reading `e` of its surroundings. -/
inductive Event (ι ε α : Type) where
  | send (i : ι) (q : α)
  | handle (i : ι) (e : ε)
  | deliver (i : ι)
  | giveUp (i : ι)

variable {ι σ ε α β ν : Type} [DecidableEq ι]

def boot (s : σ) : Net ι σ α β := ⟨s, fun _ => .idle, fun _ => .waiting⟩

def step (serve : ε → α → σ → β × σ) (n : Net ι σ α β) : Event ι ε α → Option (Net ι σ α β)
  | .send i q =>
    match n.wire i with
    | .idle => some { n with wire := Function.update n.wire i (.requested q) }
    | _ => none
  | .handle i e =>
    match n.wire i with
    | .requested q =>
      some { n with
        server := (serve e q n.server).2
        wire := Function.update n.wire i (.answered (serve e q n.server).1) }
    | _ => none
  | .deliver i =>
    match n.wire i, n.heard i with
    | .answered a, .waiting => some { n with heard := Function.update n.heard i (.answer a) }
    | _, _ => none
  | .giveUp i =>
    match n.wire i, n.heard i with
    | .idle, _ => none
    | _, .waiting => some { n with heard := Function.update n.heard i .gaveUp }
    | _, _ => none

variable {serve : ε → α → σ → β × σ} {n n' : Net ι σ α β}

/-- What a step can do. -/
theorem step_cases {event : Event ι ε α} (next : step serve n event = some n') :
    (∃ i q, event = .send i q ∧ n.wire i = .idle ∧
      n' = { n with wire := Function.update n.wire i (.requested q) }) ∨
    (∃ i e q, event = .handle i e ∧ n.wire i = .requested q ∧
      n' = { n with
        server := (serve e q n.server).2
        wire := Function.update n.wire i (.answered (serve e q n.server).1) }) ∨
    (∃ i a, event = .deliver i ∧ n.wire i = .answered a ∧
      n' = { n with heard := Function.update n.heard i (.answer a) }) ∨
    (∃ i, event = .giveUp i ∧ n' = { n with heard := Function.update n.heard i .gaveUp }) := by
  cases event with
  | send i q =>
    rw [step] at next
    split at next
    · rename_i idle
      exact Or.inl ⟨i, q, rfl, idle, (Option.some.inj next).symm⟩
    · cases next
  | handle i e =>
    rw [step] at next
    split at next
    · rename_i q requested
      exact Or.inr (Or.inl ⟨i, e, q, rfl, requested, (Option.some.inj next).symm⟩)
    · cases next
  | deliver i =>
    rw [step] at next
    split at next
    · rename_i a answered _
      exact Or.inr (Or.inr (Or.inl ⟨i, a, rfl, answered, (Option.some.inj next).symm⟩))
    · cases next
  | giveUp i =>
    rw [step] at next
    split at next
    · cases next
    · exact Or.inr (Or.inr (Or.inr ⟨i, rfl, (Option.some.inj next).symm⟩))
    · cases next

/-! An answer is kept on the wire, and a caller hears no other. -/

theorem answered_step {event : Event ι ε α} {i : ι} {a : β} (answered : n.wire i = .answered a)
    (next : step serve n event = some n') : n'.wire i = .answered a := by
  obtain ⟨j, q, _, idle, rfl⟩ | ⟨j, e, q, _, requested, rfl⟩ | ⟨j, b, _, _, rfl⟩ | ⟨j, _, rfl⟩ :=
    step_cases next
  · have other : i ≠ j := by
      rintro rfl
      rw [answered] at idle
      cases idle
    exact (Function.update_of_ne other _ _).trans answered
  · have other : i ≠ j := by
      rintro rfl
      rw [answered] at requested
      cases requested
    exact (Function.update_of_ne other _ _).trans answered
  · exact answered
  · exact answered

theorem answered_run {events : List (Event ι ε α)} {i : ι} {a : β}
    (answered : n.wire i = .answered a) (reached : Machine.run (step serve) n events = some n') :
    n'.wire i = .answered a :=
  Machine.run_invariant (fun m => m.wire i = .answered a)
    (fun _ _ _ kept next => answered_step kept next) answered reached

/-- What callers have heard stands on the wire. -/
def Truthful (n : Net ι σ α β) : Prop := ∀ i a, n.heard i = .answer a → n.wire i = .answered a

omit [DecidableEq ι] in
theorem boot_truthful (s : σ) : Truthful (boot s : Net ι σ α β) := by
  intro i a heard
  cases heard

theorem truthful_step {event : Event ι ε α} (truthful : Truthful n)
    (next : step serve n event = some n') : Truthful n' := by
  intro i a heard
  obtain ⟨j, q, _, _, same⟩ | ⟨j, e, q, _, _, same⟩ | ⟨j, b, _, answered, rfl⟩ | ⟨j, _, rfl⟩ :=
    step_cases next
  · subst same
    exact answered_step (truthful i a heard) next
  · subst same
    exact answered_step (truthful i a heard) next
  · by_cases here : i = j
    · subst here
      simp only [Function.update_self, Heard.answer.injEq] at heard
      rw [← heard]
      exact answered
    · simp only [Function.update_of_ne here] at heard
      exact truthful i a heard
  · by_cases here : i = j
    · subst here
      simp only [Function.update_self] at heard
      cases heard
    · simp only [Function.update_of_ne here] at heard
      exact truthful i a heard

theorem truthful_run {s : σ} {events : List (Event ι ε α)}
    (reached : Machine.run (step serve) (boot s) events = some n) : Truthful n :=
  Machine.run_invariant Truthful (fun _ _ _ kept next => truthful_step kept next)
    (boot_truthful s) reached

/-- What the server keeps at each request, it keeps over a run. -/
theorem server_run {s : σ} (keeps : σ → Prop) (sound : α → Prop)
    (one : ∀ e q s, sound q → keeps s → keeps (serve e q s).2) (start : keeps s)
    {events : List (Event ι ε α)} (sent : ∀ i q, Event.send i q ∈ events → sound q)
    (reached : Machine.run (step serve) (boot s) events = some n) : keeps n.server := by
  have along : Machine.Along (step serve)
      (fun _ event => ∀ i q, event = .send i q → sound q) (boot s) events := by
    rw [Machine.along_iff]
    intro before event after _ split _ i q same
    apply sent i q
    rw [split, same]
    exact List.mem_append_right before List.mem_cons_self
  refine (Machine.run_keeps
    (fun m => keeps m.server ∧ ∀ i q, m.wire i = .requested q → sound q)
    ?_ ⟨start, fun i q requested => by cases requested⟩ along reached).1
  intro m event m' ⟨kept, waiting⟩ met next
  obtain ⟨j, q, rfl, _, rfl⟩ | ⟨j, e, q, rfl, requested, rfl⟩ | ⟨j, b, rfl, _, rfl⟩ | ⟨j, rfl, rfl⟩ :=
    step_cases next
  · refine ⟨kept, fun i q' requested => ?_⟩
    by_cases here : i = j
    · subst here
      simp only [Function.update_self, Wire.requested.injEq] at requested
      exact met i q' (by rw [requested])
    · simp only [Function.update_of_ne here] at requested
      exact waiting i q' requested
  · refine ⟨one e q m.server (waiting j q requested) kept, fun i q' requested => ?_⟩
    by_cases here : i = j
    · subst here
      simp only [Function.update_self] at requested
      cases requested
    · simp only [Function.update_of_ne here] at requested
      exact waiting i q' requested
  · exact ⟨kept, waiting⟩
  · exact ⟨kept, waiting⟩

/-- What stands on the wire was sent. -/
theorem sent_of_requested {s : σ} {events : List (Event ι ε α)} {j : ι} {q : α}
    (reached : Machine.run (step serve) (boot s) events = some n)
    (requested : n.wire j = .requested q) : .send j q ∈ events := by
  have along : Machine.Along (step serve) (fun _ event => event ∈ events) (boot s) events := by
    rw [Machine.along_iff]
    intro before event after _ split _
    rw [split]
    exact List.mem_append_right before List.mem_cons_self
  refine Machine.run_keeps (fun m => ∀ j q, m.wire j = .requested q → Event.send j q ∈ events)
    ?_ (fun j q idle => by cases idle) along reached j q requested
  intro m event m' kept member next k p waiting
  obtain ⟨i, q', rfl, _, rfl⟩ | ⟨i, e, q', rfl, _, rfl⟩ | ⟨i, b, rfl, _, rfl⟩ | ⟨i, rfl, rfl⟩ :=
    step_cases next
  · by_cases here : k = i
    · subst here
      simp only [Function.update_self, Wire.requested.injEq] at waiting
      rw [← waiting]
      exact member
    · simp only [Function.update_of_ne here] at waiting
      exact kept k p waiting
  · by_cases here : k = i
    · subst here
      simp only [Function.update_self] at waiting
      cases waiting
    · simp only [Function.update_of_ne here] at waiting
      exact kept k p waiting
  · exact kept k p waiting
  · exact kept k p waiting

/-! One writer of a part of the state. -/

section
variable {view : σ → ν} {Touches : α → Prop}

/-- No request that touches the part stands on the wire, that of call `i` apart. -/
def Quiet (Touches : α → Prop) (n : Net ι σ α β) (i : ι) : Prop :=
  ∀ j q, j ≠ i → n.wire j = .requested q → ¬Touches q

/-- The write of call `i` is still on its way, or it was handled where the part was as before. -/
def Settled (serve : ε → α → σ → β × σ) (view : σ → ν) (start : ν) (i : ι) (q : α)
    (n : Net ι σ α β) : Prop :=
  (n.wire i = .requested q ∧ view n.server = start) ∨
    ∃ e s, view s = start ∧ n.wire i = .answered (serve e q s).1 ∧
      view n.server = view (serve e q s).2

theorem settled_step (frame : ∀ e q s, ¬Touches q → view (serve e q s).2 = view s)
    {event : Event ι ε α} {start : ν} {i : ι} {q : α}
    (silent : ∀ j q', event = .send j q' → ¬Touches q')
    (held : Quiet Touches n i ∧ Settled serve view start i q n)
    (next : step serve n event = some n') :
    Quiet Touches n' i ∧ Settled serve view start i q n' := by
  obtain ⟨quiet, settled⟩ := held
  obtain ⟨j, q', rfl, idle, rfl⟩ | ⟨j, e, q', rfl, requested, rfl⟩ | ⟨j, b, rfl, _, rfl⟩ |
    ⟨j, rfl, rfl⟩ := step_cases next
  · have other : i ≠ j := by
      rintro rfl
      obtain ⟨waiting, _⟩ | ⟨e, s, _, answered, _⟩ := settled
      · rw [waiting] at idle
        cases idle
      · rw [answered] at idle
        cases idle
    refine ⟨fun k q'' apart requested => ?_, ?_⟩
    · by_cases here : k = j
      · subst here
        simp only [Function.update_self, Wire.requested.injEq] at requested
        rw [← requested]
        exact silent k q' rfl
      · simp only [Function.update_of_ne here] at requested
        exact quiet k q'' apart requested
    · simpa only [Settled, Function.update_of_ne other] using settled
  · refine ⟨fun k q'' apart waiting => ?_, ?_⟩
    · by_cases here : k = j
      · subst here
        simp only [Function.update_self] at waiting
        cases waiting
      · simp only [Function.update_of_ne here] at waiting
        exact quiet k q'' apart waiting
    · by_cases here : j = i
      · subst here
        obtain ⟨waiting, before⟩ | ⟨e', s, _, answered, _⟩ := settled
        · rw [waiting] at requested
          cases requested
          exact Or.inr ⟨e, n.server, before, Function.update_self .., rfl⟩
        · rw [answered] at requested
          cases requested
      · have same : view (serve e q' n.server).2 = view n.server :=
          frame e q' n.server (quiet j q' here requested)
        simpa only [Settled, Function.update_of_ne (Ne.symm here), same] using settled
  · exact ⟨quiet, settled⟩
  · exact ⟨quiet, settled⟩

/-- While nobody else writes the part, a write on the wire stays undone or is done once. -/
theorem settled_run (view : σ → ν) (Touches : α → Prop)
    (frame : ∀ e q s, ¬Touches q → view (serve e q s).2 = view s)
    {events : List (Event ι ε α)} {i : ι} {q : α} (requested : n.wire i = .requested q)
    (quiet : Quiet Touches n i) (silent : ∀ j q', Event.send j q' ∈ events → ¬Touches q')
    (reached : Machine.run (step serve) n events = some n') :
    Settled serve view (view n.server) i q n' := by
  have along : Machine.Along (step serve)
      (fun _ event => ∀ j q', event = .send j q' → ¬Touches q') n events := by
    rw [Machine.along_iff]
    intro before event after _ split _ j q' same
    apply silent j q'
    rw [split, same]
    exact List.mem_append_right before List.mem_cons_self
  exact (Machine.run_keeps (fun m => Quiet Touches m i ∧ Settled serve view (view n.server) i q m)
    (fun m event m' held met next => settled_step frame met held next)
    ⟨quiet, Or.inl ⟨requested, rfl⟩⟩ along reached).2

/-- The same from the sending of the write on, when no other write stands on the wire. -/
theorem settled_send (view : σ → ν) (Touches : α → Prop)
    (frame : ∀ e q s, ¬Touches q → view (serve e q s).2 = view s)
    {events : List (Event ι ε α)} {i : ι} {q : α}
    (quiet : ∀ j q', n.wire j = .requested q' → ¬Touches q')
    (silent : ∀ j q', Event.send j q' ∈ events → ¬Touches q')
    (reached : Machine.run (step serve) n (.send i q :: events) = some n') :
    Settled serve view (view n.server) i q n' := by
  obtain ⟨middle, next, rest⟩ := Machine.run_cons_eq_some.mp reached
  obtain ⟨j, q', same, idle, rfl⟩ | ⟨j, e, q', same, _⟩ | ⟨j, b, same, _⟩ | ⟨j, same, _⟩ :=
    step_cases next
  · cases same
    refine settled_run (n := { n with wire := Function.update n.wire i (.requested q) }) view Touches frame
      (Function.update_self ..) (fun k q'' apart requested => ?_) silent rest
    simp only [Function.update_of_ne apart] at requested
    exact quiet k q'' requested
  · cases same
  · cases same
  · cases same

end

/-- An answer was computed in a state of the server after the request was sent. -/
theorem handled_between {events : List (Event ι ε α)} {i : ι} {q : α} {a : β}
    (requested : n.wire i = .requested q) (answered : n'.wire i = .answered a)
    (reached : Machine.run (step serve) n events = some n') :
    ∃ before e after m, events = before ++ .handle i e :: after ∧
      Machine.run (step serve) n before = some m ∧ a = (serve e q m.server).1 := by
  induction events generalizing n with
  | nil =>
    cases reached
    rw [requested] at answered
    cases answered
  | cons event events ih =>
    obtain ⟨middle, next, rest⟩ := Machine.run_cons_eq_some.mp reached
    by_cases kept : middle.wire i = .requested q
    · obtain ⟨before, e, after, m, split, there, computed⟩ := ih kept rest
      refine ⟨event :: before, e, after, m, by rw [split, List.cons_append], ?_, computed⟩
      rw [Machine.run_cons next]
      exact there
    · obtain ⟨j, q', rfl, idle, rfl⟩ | ⟨j, e, q', rfl, waiting, same⟩ | ⟨j, b, rfl, _, rfl⟩ |
        ⟨j, rfl, rfl⟩ := step_cases next
      · have other : i ≠ j := by
          rintro rfl
          rw [requested] at idle
          cases idle
        exact absurd ((Function.update_of_ne other _ _).trans requested) kept
      · by_cases here : i = j
        · subst here
          rw [requested] at waiting
          cases waiting
          refine ⟨[], e, events, n, rfl, rfl, ?_⟩
          have done : middle.wire i = .answered (serve e q n.server).1 := by
            rw [same]
            exact Function.update_self ..
          have := answered_run done rest
          rw [answered] at this
          exact Wire.answered.inj this
        · apply absurd _ kept
          rw [same]
          exact (Function.update_of_ne here _ _).trans requested
      · exact absurd requested kept
      · exact absurd requested kept

/-- Once the answer to a write is there, and while nobody else writes, an answer to a later
    request was computed where the part is as that write has left it. -/
theorem read_settled (view : σ → ν) (Touches : α → Prop)
    (frame : ∀ e q s, ¬Touches q → view (serve e q s).2 = view s) {n'' : Net ι σ α β}
    {events later : List (Event ι ε α)} {i j : ι} {q q' : α} {a b : β}
    (quiet : ∀ k p, n.wire k = .requested p → ¬Touches p)
    (silent : ∀ k p, Event.send k p ∈ events ++ .send j q' :: later → ¬Touches p)
    (reached : Machine.run (step serve) n (.send i q :: events) = some n')
    (answered : n'.wire i = .answered a)
    (finish : Machine.run (step serve) n' (.send j q' :: later) = some n'')
    (read : n''.wire j = .answered b) :
    ∃ e s e' s', view s = view n.server ∧ a = (serve e q s).1 ∧
      view s' = view (serve e q s).2 ∧ b = (serve e' q' s').1 := by
  obtain ⟨middle, next, rest⟩ := Machine.run_cons_eq_some.mp finish
  have requested : middle.wire j = .requested q' := by
    obtain ⟨k, q'', same, _, rfl⟩ | ⟨k, e, q'', same, _⟩ | ⟨k, b, same, _⟩ | ⟨k, same, _⟩ :=
      step_cases next
    · cases same
      exact Function.update_self ..
    · cases same
    · cases same
    · cases same
  obtain ⟨before, e', after, m, split, there, computed⟩ := handled_between requested read rest
  have whole : Machine.run (step serve) n (.send i q :: (events ++ .send j q' :: before)) =
      some m := by
    rw [← List.cons_append, Machine.run_append, reached]
    exact (Machine.run_cons next before).trans there
  have settled := settled_send view Touches frame quiet (fun k q'' member => ?_) whole
  · have kept : m.wire i = .answered a :=
      answered_run (answered_step answered next) there
    obtain ⟨waiting, _⟩ | ⟨e, s, start, done, now⟩ := settled
    · rw [kept] at waiting
      cases waiting
    · rw [kept] at done
      exact ⟨e, s, e', m.server, start, Wire.answered.inj done, now, computed⟩
  · apply silent k q''
    rw [split]
    simp only [List.mem_append, List.mem_cons] at member ⊢
    tauto

end RemoteObject
