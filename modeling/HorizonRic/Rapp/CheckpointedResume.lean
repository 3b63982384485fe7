import HorizonRic.Rapp.TolerantFile

/-!
Runs of the daemon on one telemetry file, one after the other, that resume from
the state file. Every run ends by itself or is killed; between runs lines are
appended to the telemetry file. What a run hands over follows the events that the
state file covers, so nothing covered is handed over again and nothing is skipped.
-/
namespace HorizonRic.Rapp

open Py Io Machine

inductive Ending where
  | running
  | ended
  | killed
  deriving DecidableEq

structure Run where
  log : List Entry
  ending : Ending

/-- No daemon runs and the state file waits, or one does. -/
inductive Host where
  | idle (stateFile : StateFile)
  | running (cfg : DaemonConfig) (d : Daemon FileStream)

/-- The telemetry file, the runs that are over, and the host. -/
structure World where
  lines : List (List Char)
  past : List Run := []
  host : Host := .idle .missing

inductive Happening where
  | append (more : List (List Char))
  /-- A daemon starts; reading the telemetry file may fail in its run. -/
  | start (cfg : DaemonConfig) (unreadable : Option PyErr) (now : ℚ)
  | input (i : Input)
  | kill

namespace World

def stateFile (w : World) : StateFile :=
  match w.host with
  | .idle stateFile => stateFile
  | .running _ d => d.stateFile

/-- All runs in order, the current one last. -/
def runs (w : World) : List Run :=
  match w.host with
  | .idle _ => w.past
  | .running _ d => w.past ++ [⟨d.log, .running⟩]

section
variable (wire : Wire)

/-- What `_read_lines` gives in a run. -/
def readLines (w : World) : Option PyErr → Except PyErr (List (List Char))
  | some e => .error e
  | none => .ok w.lines

/-- The world after a step of its daemon. -/
def afterStep (w : World) (cfg : DaemonConfig) (d : Daemon FileStream) : World :=
  match d.phase with
  | .ended => { w with past := w.past ++ [⟨d.log, .ended⟩], host := .idle d.stateFile }
  | _ => { w with host := .running cfg d }

def step (w : World) : Happening → Option World
  | .append more =>
    match w.host with
    | .idle _ => some { w with lines := w.lines ++ more }
    | .running _ _ => none
  | .start cfg unreadable now =>
    match w.host with
    | .idle stateFile =>
      match StateCheckpoint.load wire.py stateFile with
      | .ok c =>
        some { w with
          host := .running cfg
            (.boot (.suspended (.unread (w.readLines unreadable) c.lastEventId)) c stateFile now) }
      | .error _ => none
    | .running _ _ => none
  | .input i =>
    match w.host with
    | .idle _ => none
    | .running cfg d => (d.step wire.py (fileSource wire) cfg i).map (w.afterStep cfg)
  | .kill =>
    match w.host with
    | .idle _ => none
    | .running _ d =>
      some { w with past := w.past ++ [⟨d.log, .killed⟩], host := .idle d.stateFile }

end
end World

/-- The run keeps the event: it ended and the event had a result, or it was killed and the event
    was handed over before a checkpoint was saved. -/
def Run.Keeps (run : Run) (e : TelemetryEvent) : Prop :=
  run.ending = .ended ∧ .returned e ∈ run.log ∨
    run.ending = .killed ∧ ∃ before after, run.log = before ++ .handed e :: after ∧ .saved ∈ after

/-- How a run goes on from the earlier ones, in a file of these events: what they keep is not
    handed over again, the events are handed over in file order, and an event only after all
    that precede it. -/
structure GoesOn (events : List TelemetryEvent) (earlier : List Run) (run : Run) : Prop where
  fresh : ∀ old ∈ earlier, ∀ e, old.Keeps e → e ∉ handedEvents run.log
  inOrder : handedEvents run.log <:+: events
  noneSkipped : ∀ before e after, run.log = before ++ .handed e :: after →
    ∃ preceding following, events = preceding ++ e :: following ∧
      ∀ p ∈ preceding, p ∈ handedEvents before ∨ ∃ old ∈ earlier, p ∈ handedEvents old.log

/-- Every event that precedes the stored id, and its own, was handed over in one of the runs. -/
def StoredAttempted (py : Interpreter) (events : List TelemetryEvent) (stateFile : StateFile)
    (runs : List Run) : Prop :=
  ∃ c, StateCheckpoint.load py stateFile = .ok c ∧
    (c.lastEventId = .null ∨ ∃ preceding e following, events = preceding ++ e :: following ∧
      c.lastEventId = .str e.eventId ∧
      ∀ p ∈ preceding ++ [e], ∃ run ∈ runs, p ∈ handedEvents run.log)

/-! The invariant. -/

section
variable (wire : Wire) (events : List TelemetryEvent)

/-- The state file covers these events. -/
def Covers (py : Interpreter) (stateFile : StateFile) (seen : List TelemetryEvent) : Prop :=
  ∃ c, StateCheckpoint.load py stateFile = .ok c ∧ c.lastEventId = mark seen

/-- The covered events come first in the file; the runs so far handed them over, and keep no
    others. -/
structure Covered (past : List Run) (seen : List TelemetryEvent) : Prop where
  first : seen <+: events
  attempted : ∀ e ∈ seen, ∃ run ∈ past, e ∈ handedEvents run.log
  kept : ∀ run ∈ past, ∀ e, run.Keeps e → e ∈ seen

/-- A daemon that started with `seen` covered; its checkpoint covers `done` of what it handed
    over, the state file `stored` of that. -/
structure Serving (past : List Run) (d : Daemon FileStream)
    (seen done stored : List TelemetryEvent) : Prop where
  covered : Covered events past seen
  ahead : seen ++ (handedEvents d.log ++ upcoming wire d.stream) <+: events
  doneFirst : done <+: handedEvents d.log
  checkpoint : d.checkpoint.lastEventId = mark (seen ++ done)
  storedFirst : stored <+: done
  file : Covers wire.py d.stateFile (seen ++ stored)
  returned : ∀ e, .returned e ∈ d.log → e ∈ done
  saved : ∀ before e after, d.log = before ++ .handed e :: after → .saved ∈ after → e ∈ stored
  deciding : ∀ e, d.phase = .deciding e → ∃ before, handedEvents d.log = before ++ [e]
  timing : d.phase = .timing → done = handedEvents d.log

end

variable {wire : Wire} {events : List TelemetryEvent} {past : List Run}
  {d d' : Daemon FileStream} {seen done stored : List TelemetryEvent} {cfg : DaemonConfig}

theorem handedEvents_split {log before after : List Entry} {e : TelemetryEvent}
    (split : log = before ++ .handed e :: after) :
    handedEvents log = handedEvents before ++ e :: handedEvents after := by
  rw [split, ← List.singleton_append, handedEvents_append, handedEvents_append,
    handedEvents_handed, List.singleton_append]

/-- An entry of a longer log stands in the old part, or is the new one. -/
theorem split_concat {log before after : List Entry} {entry last : Entry}
    (split : log ++ [last] = before ++ entry :: after) :
    (after = [] ∧ entry = last ∧ before = log) ∨
      ∃ after', after = after' ++ [last] ∧ log = before ++ entry :: after' := by
  rcases List.eq_nil_or_concat after with rfl | ⟨init, final, rfl⟩
  · left
    obtain ⟨same, last'⟩ := List.append_inj' split rfl
    exact ⟨rfl, (List.singleton_inj.mp last').symm, same.symm⟩
  · right
    rw [List.concat_eq_append, ← List.cons_append, ← List.append_assoc] at split
    obtain ⟨same, last'⟩ := List.append_inj' split rfl
    refine ⟨init, ?_, same⟩
    rw [List.concat_eq_append, ← last']

theorem saved_concat {log : List Entry}
    (saved : ∀ before e after, log = before ++ .handed e :: after → .saved ∈ after → e ∈ stored)
    {last : Entry} (other : last ≠ .saved) {before after : List Entry} {e : TelemetryEvent}
    (split : log ++ [last] = before ++ .handed e :: after) (checkpointed : .saved ∈ after) :
    e ∈ stored := by
  rcases split_concat split with ⟨rfl, _, _⟩ | ⟨after', rfl, old⟩
  · cases checkpointed
  · rcases List.mem_append.mp checkpointed with earlier | here
    · exact saved before e after' old earlier
    · exact absurd (List.mem_singleton.mp here).symm other

/-- What was saved covers what the checkpoint covers. -/
theorem covers_save {utc text : String} {c saved : StateCheckpoint}
    (id : c.lastEventId = mark seen) (written : c.save wire.py utc = .ok (saved, text)) :
    Covers wire.py (.text text) seen ∧ saved.lastEventId = mark seen := by
  have plain : c.Plain := by
    rw [StateCheckpoint.Plain, id, mark]
    split
    · exact Or.inr ⟨_, rfl⟩
    · exact Or.inl rfl
  have same : saved.lastEventId = mark seen := by
    obtain ⟨_, _, same⟩ := bind_eq_ok written
    cases same
    exact id
  exact ⟨⟨saved, StateCheckpoint.load_save wire.py plain written, same⟩, same⟩

namespace Serving

/-- A step that hands over no event, returns none and saves nothing, and leads to the head of
    the loop, the race or the end. -/
theorem quiet (h : Serving wire events past d seen done stored)
    (stream : d'.stream = d.stream)
    (checkpoint : d'.checkpoint.lastEventId = d.checkpoint.lastEventId)
    (stateFile : d'.stateFile = d.stateFile)
    (handed : handedEvents d'.log = handedEvents d.log)
    (returned : ∀ e, .returned e ∈ d'.log → .returned e ∈ d.log)
    (saved : ∀ before e after, d'.log = before ++ .handed e :: after → .saved ∈ after →
      e ∈ stored)
    (deciding : ∀ e, d'.phase ≠ .deciding e) (timing : d'.phase ≠ .timing) :
    Serving wire events past d' seen done stored where
  covered := h.covered
  ahead := by
    rw [stream, handed]
    exact h.ahead
  doneFirst := by
    rw [handed]
    exact h.doneFirst
  checkpoint := checkpoint.trans h.checkpoint
  storedFirst := h.storedFirst
  file := by
    rw [stateFile]
    exact h.file
  returned := fun e member => h.returned e (returned e member)
  saved := saved
  deciding := fun e phase => absurd phase (deciding e)
  timing := fun phase => absurd phase timing

/-- A step that moves the phase only. -/
theorem move (h : Serving wire events past d seen done stored)
    (stream : d'.stream = d.stream)
    (checkpoint : d'.checkpoint.lastEventId = d.checkpoint.lastEventId)
    (stateFile : d'.stateFile = d.stateFile) (log : d'.log = d.log)
    (deciding : ∀ e, d'.phase ≠ .deciding e) (timing : d'.phase ≠ .timing) :
    Serving wire events past d' seen done stored := by
  apply h.quiet stream checkpoint stateFile (by rw [log]) _ _ deciding timing
  · rw [log]
    exact fun e member => member
  · rw [log]
    exact h.saved

theorem anext (h : Serving wire events past d seen done stored)
    (next : d.step wire.py (fileSource wire) cfg .anext = some d') :
    Serving wire events past d' seen done stored := by
  obtain ⟨_, outcome, stream, taken, rfl⟩ := Daemon.step_anext next
  rcases anext_upcoming taken with ⟨e, rfl, ahead⟩ | ⟨noEvent, rfl⟩
  · exact {
      covered := h.covered
      ahead := by
        have before := h.ahead
        rw [ahead] at before
        simpa [Daemon.takeNext] using before
      doneFirst := by
        simp only [Daemon.takeNext, handedEvents_append]
        exact h.doneFirst.trans (List.prefix_append _ _)
      checkpoint := h.checkpoint
      storedFirst := h.storedFirst
      file := h.file
      returned := by
        intro e' member
        exact h.returned e' (by simpa [Daemon.takeNext] using member)
      saved := by
        intro before e' after split saved
        exact saved_concat h.saved (by simp) split saved
      deciding := by
        intro e' phase
        cases phase
        exact ⟨handedEvents d.log, by simp [Daemon.takeNext]⟩
      timing := by
        intro phase
        cases phase }
  · have ahead : seen ++ (handedEvents d.log ++ upcoming wire .finished) <+: events := by
      refine List.IsPrefix.trans ?_ h.ahead
      rw [upcoming_finished, List.append_nil, ← List.append_assoc]
      exact List.prefix_append _ _
    have idle : Serving wire events past { d with stream := .finished } seen done stored :=
      { h with ahead := ahead }
    cases outcome with
    | event e => exact absurd rfl (noEvent e)
    | stopAsyncIteration =>
      exact idle.move rfl rfl rfl rfl (by simp [Daemon.takeNext]) (by simp [Daemon.takeNext])
    | raised err =>
      exact idle.move rfl rfl rfl rfl (by simp [Daemon.takeNext]) (by simp [Daemon.takeNext])

theorem result (h : Serving wire events past d seen done stored) {r : PipelineResult}
    (next : d.step wire.py (fileSource wire) cfg (.result r) = some d') :
    Serving wire events past d' seen (handedEvents d'.log) stored := by
  obtain ⟨e, deciding, rfl⟩ := Daemon.step_result next
  obtain ⟨stream, _, _, stateFile⟩ := d.tally_frame r
  obtain ⟨before, last⟩ := h.deciding e deciding
  have log : handedEvents (d.log ++ [.returned e]) = handedEvents d.log := by simp
  exact {
    covered := h.covered
    ahead := by
      change seen ++ (handedEvents (d.log ++ [.returned e]) ++ upcoming wire (d.tally r).stream)
        <+: events
      rw [stream, log]
      exact h.ahead
    doneFirst := List.prefix_rfl
    checkpoint := by
      change Value.str e.eventId = mark (seen ++ handedEvents (d.log ++ [.returned e]))
      rw [log, last, ← List.append_assoc, mark_concat]
    storedFirst := by
      change stored <+: handedEvents (d.log ++ [.returned e])
      rw [log]
      exact h.storedFirst.trans h.doneFirst
    file := by
      change Covers wire.py (d.tally r).stateFile (seen ++ stored)
      rw [stateFile]
      exact h.file
    returned := by
      intro e' member
      change e' ∈ handedEvents (d.log ++ [.returned e])
      rw [log]
      rcases List.mem_append.mp member with old | new
      · exact h.doneFirst.subset (h.returned e' old)
      · cases List.mem_singleton.mp new
        rw [last]
        simp
    saved := by
      intro before e' after split saved
      exact saved_concat h.saved (by simp) split saved
    deciding := by
      intro e' phase
      cases phase
    timing := fun _ => rfl }

theorem raises (h : Serving wire events past d seen done stored)
    (next : d.step wire.py (fileSource wire) cfg .raises = some d') :
    Serving wire events past d' seen done stored := by
  obtain ⟨e, _, rfl⟩ := Daemon.step_raises next
  refine h.quiet rfl rfl rfl (by simp) (fun e' member => by simpa using member) ?_ ?_ ?_
  · intro before e' after split saved
    exact saved_concat h.saved (by simp) split saved
  · intro e' phase
    cases phase
  · intro phase
    cases phase

/-- Saving right after a result covers everything handed over so far. -/
theorem save (h : Serving wire events past d seen done stored) (timing : d.phase = .timing)
    {utc : String} (written : d.saveState wire.py utc = some d') :
    Serving wire events past d' seen done done := by
  obtain ⟨checkpoint, text, wrote, rfl⟩ := Daemon.saveState_some written
  obtain ⟨file, id⟩ := covers_save h.checkpoint wrote
  have log : handedEvents (d.log ++ [.saved]) = handedEvents d.log := by simp
  exact {
    covered := h.covered
    ahead := by
      rw [log]
      exact h.ahead
    doneFirst := by
      rw [log]
      exact h.doneFirst
    checkpoint := id
    storedFirst := List.prefix_rfl
    file := file
    returned := by
      intro e member
      exact h.returned e (by simpa using member)
    saved := by
      intro before e after split _
      rcases split_concat split with ⟨_, other, _⟩ | ⟨after', _, old⟩
      · cases other
      · rw [h.timing timing, handedEvents_split old]
        simp
    deciding := by
      intro e phase
      rw [timing] at phase
      cases phase
    timing := by
      intro _
      rw [log]
      exact h.timing timing }

theorem afterEvent (h : Serving wire events past d seen done stored) (cfg : DaemonConfig) :
    Serving wire events past (d.afterEvent cfg) seen done stored := by
  refine h.move rfl rfl rfl rfl ?_ ?_
  · intro e
    simp only [Daemon.afterEvent]
    split <;> simp
  · simp only [Daemon.afterEvent]
    split <;> simp

theorem clock (h : Serving wire events past d seen done stored) {now : ℚ} {utc : String}
    (next : d.step wire.py (fileSource wire) cfg (.clock now utc) = some d') :
    ∃ stored', Serving wire events past d' seen done stored' := by
  obtain ⟨timing, rfl | ⟨saved, written, rfl⟩⟩ := Daemon.step_clock next
  · exact ⟨stored, h.afterEvent cfg⟩
  · have kept := h.save timing written
    have later : Serving wire events past { saved with lastCheckpointAt := now } seen done done :=
      { kept with }
    exact ⟨done, later.afterEvent cfg⟩

theorem step (h : Serving wire events past d seen done stored) {i : Input}
    (next : d.step wire.py (fileSource wire) cfg i = some d') (going : d'.phase ≠ .ended) :
    ∃ done' stored', Serving wire events past d' seen done' stored' := by
  cases i with
  | signal =>
    cases next
    exact ⟨done, stored, { h with }⟩
  | head =>
    obtain ⟨_, rfl⟩ := Daemon.step_head next
    refine ⟨done, stored, h.move rfl rfl rfl rfl ?_ ?_⟩
    · intro e
      split <;> simp
    · split <;> simp
  | anext => exact ⟨done, stored, h.anext next⟩
  | stopped =>
    obtain ⟨_, rfl⟩ := Daemon.step_stopped next
    exact ⟨done, stored, h.move rfl rfl rfl rfl (by simp) (by simp)⟩
  | result r => exact ⟨_, stored, h.result next⟩
  | raises => exact ⟨done, stored, h.raises next⟩
  | clock now utc => exact ⟨done, h.clock next⟩
  | finish utc =>
    obtain ⟨_, saved, _, rfl⟩ := Daemon.step_finish next
    exact absurd rfl going

/-- A run that is over: what it leaves covered is `seen` with `more` of what it handed over. -/
theorem concluded (h : Serving wire events past d seen done stored) {run : Run}
    {more : List TelemetryEvent} (handed : handedEvents run.log = handedEvents d.log)
    (first : more <+: done) (kept : ∀ e, run.Keeps e → e ∈ more) :
    Covered events (past ++ [run]) (seen ++ more) where
  first := by
    have within : more <+: handedEvents d.log ++ upcoming wire d.stream :=
      (first.trans h.doneFirst).trans (List.prefix_append _ _)
    exact ((List.prefix_append_right_inj seen).mpr within).trans h.ahead
  attempted := by
    intro e member
    rcases List.mem_append.mp member with old | new
    · obtain ⟨before, among, handed⟩ := h.covered.attempted e old
      exact ⟨before, by simp [among], handed⟩
    · refine ⟨run, by simp, ?_⟩
      rw [handed]
      exact (first.trans h.doneFirst).subset new
  kept := by
    intro other among e keeps
    rcases List.mem_append.mp among with old | new
    · exact List.mem_append_left _ (h.covered.kept other old e keeps)
    · cases List.mem_singleton.mp new
      exact List.mem_append_right _ (kept e keeps)

theorem killed (h : Serving wire events past d seen done stored) :
    Covered events (past ++ [⟨d.log, .killed⟩]) (seen ++ stored) := by
  apply h.concluded rfl h.storedFirst
  rintro e (⟨ended, _⟩ | ⟨_, before, after, split, saved⟩)
  · cases ended
  · exact h.saved before e after split saved

/-- The last checkpoint covers every event with a result. -/
theorem finish (h : Serving wire events past d seen done stored) {utc : String}
    (next : d.step wire.py (fileSource wire) cfg (.finish utc) = some d') :
    Covered events (past ++ [⟨d'.log, .ended⟩]) (seen ++ done) ∧
      Covers wire.py d'.stateFile (seen ++ done) ∧ handedEvents d'.log = handedEvents d.log := by
  obtain ⟨_, saved, written, rfl⟩ := Daemon.step_finish next
  obtain ⟨checkpoint, text, wrote, rfl⟩ := Daemon.saveState_some written
  have log : handedEvents (d.log ++ [.saved]) = handedEvents d.log := by simp
  refine ⟨h.concluded log List.prefix_rfl ?_, (covers_save h.checkpoint wrote).1, log⟩
  rintro e (⟨_, returned⟩ | ⟨killed, _⟩)
  · exact h.returned e (by simpa using returned)
  · cases killed

theorem goesOn (h : Serving wire events past d seen done stored)
    (distinct : (events.map TelemetryEvent.eventId).Nodup) {run : Run}
    (handed : handedEvents run.log = handedEvents d.log) : GoesOn events past run := by
  obtain ⟨rest, whole⟩ := h.ahead
  have shape : events = seen ++ (handedEvents run.log ++ (upcoming wire d.stream ++ rest)) := by
    rw [← whole, handed]
    simp
  refine ⟨?_, ?_, ?_⟩
  · intro old among e keeps again
    have nodup := List.Nodup.of_map _ distinct
    rw [shape] at nodup
    have apart := (List.nodup_append.mp nodup).2.2 e (h.covered.kept old among e keeps) e
    exact apart (by simp [again]) rfl
  · rw [shape]
    exact ⟨seen, upcoming wire d.stream ++ rest, by simp⟩
  · intro before e after split
    refine ⟨seen ++ handedEvents before, handedEvents after ++ (upcoming wire d.stream ++ rest), ?_, ?_⟩
    · rw [shape, handedEvents_split split]
      simp
    · intro p member
      rcases List.mem_append.mp member with old | new
      · exact Or.inr (h.covered.attempted p old)
      · exact Or.inl new

end Serving

/-- Only the last checkpoint ends a daemon. -/
theorem finish_of_ended {i : Input} (going : d.phase ≠ .ended)
    (next : d.step wire.py (fileSource wire) cfg i = some d') (ended : d'.phase = .ended) :
    ∃ utc, i = .finish utc := by
  cases i with
  | signal =>
    cases next
    exact absurd ended going
  | head =>
    obtain ⟨_, rfl⟩ := Daemon.step_head next
    simp only at ended
    split at ended <;> cases ended
  | anext =>
    obtain ⟨_, outcome, stream, _, rfl⟩ := Daemon.step_anext next
    cases outcome <;> cases ended
  | stopped =>
    obtain ⟨_, rfl⟩ := Daemon.step_stopped next
    cases ended
  | result r =>
    obtain ⟨e, _, rfl⟩ := Daemon.step_result next
    cases ended
  | raises =>
    obtain ⟨e, _, rfl⟩ := Daemon.step_raises next
    cases ended
  | clock now utc =>
    obtain ⟨_, rfl | ⟨saved, _, rfl⟩⟩ := Daemon.step_clock next
    · simp only [Daemon.afterEvent] at ended
      split at ended <;> cases ended
    · simp only [Daemon.afterEvent] at ended
      split at ended <;> cases ended
  | finish utc => exact ⟨utc, rfl⟩

/-! Runs one after the other. -/

/-- Each run goes on from those before it. -/
def History (events : List TelemetryEvent) (runs : List Run) : Prop :=
  ∀ earlier run later, runs = earlier ++ run :: later → GoesOn events earlier run

theorem history_concat {runs : List Run} {run : Run} (history : History events runs)
    (last : GoesOn events runs run) : History events (runs ++ [run]) := by
  intro earlier other later split
  rcases List.eq_nil_or_concat later with rfl | ⟨init, final, rfl⟩
  · obtain ⟨same, same'⟩ := List.append_inj' split rfl
    rw [← same, ← List.singleton_inj.mp same']
    exact last
  · rw [List.concat_eq_append, ← List.cons_append, ← List.append_assoc] at split
    exact history earlier other init (List.append_inj' split rfl).1

theorem GoesOn.append {earlier : List Run} {run : Run} (h : GoesOn events earlier run)
    (more : List TelemetryEvent) : GoesOn (events ++ more) earlier run := by
  refine ⟨h.fresh, h.inOrder.trans (List.prefix_append _ _).isInfix, ?_⟩
  intro before e after split
  obtain ⟨preceding, following, shape, attempted⟩ := h.noneSkipped before e after split
  exact ⟨preceding, following ++ more, by simp [shape], attempted⟩

theorem Covered.append (h : Covered events past seen) (more : List TelemetryEvent) :
    Covered (events ++ more) past seen :=
  { h with first := h.first.trans (List.prefix_append _ _) }

namespace World
variable {w w' : World}

/-- The events of the file have distinct ids, none of them empty. -/
def Identified (wire : Wire) (w : World) : Prop :=
  ((telemetryEvents wire w.lines).map TelemetryEvent.eventId).Nodup ∧
    ∀ e ∈ telemetryEvents wire w.lines, e.eventId ≠ ""

/-- The runs that are over form a history, and the host stands where its checkpoint says. -/
structure Resumes (wire : Wire) (w : World) : Prop where
  history : History (telemetryEvents wire w.lines) w.past
  host : match w.host with
    | .idle stateFile => ∃ seen, Covered (telemetryEvents wire w.lines) w.past seen ∧
        Covers wire.py stateFile seen
    | .running _ d => d.phase ≠ .ended ∧ ∃ seen done stored,
        Serving wire (telemetryEvents wire w.lines) w.past d seen done stored

theorem resumes_fresh (wire : Wire) (lines : List (List Char)) :
    Resumes wire { lines } where
  history := by
    intro earlier run later split
    simp at split
  host := by
    refine ⟨[], ⟨List.nil_prefix, by simp, by simp⟩, {}, rfl, rfl⟩

/-- A daemon that starts goes on after what the state file covers. -/
theorem serving_boot {stateFile : StateFile} {c : StateCheckpoint}
    (identified : Identified wire w) (covered : Covered (telemetryEvents wire w.lines) w.past seen)
    (loaded : StateCheckpoint.load wire.py stateFile = .ok c) (id : c.lastEventId = mark seen)
    (unreadable : Option PyErr) (now : ℚ) :
    Serving wire (telemetryEvents wire w.lines) w.past
      (.boot (.suspended (.unread (w.readLines unreadable) c.lastEventId)) c stateFile now)
      seen [] [] where
  covered := covered
  ahead := by
    obtain ⟨rest, whole⟩ := covered.first
    cases unreadable with
    | some e =>
      change seen ++ ([] ++ []) <+: _
      rw [List.append_nil, List.append_nil]
      exact covered.first
    | none =>
      have start : resumeStart (mark seen) (telemetryEvents wire w.lines) = seen.length := by
        rw [← whole]
        refine resumeStart_mark ?_ ?_
        · rw [whole]
          exact identified.1
        · intro e member
          apply identified.2 e
          rw [← whole]
          exact List.mem_append_left _ member
      have ahead : upcoming wire (.suspended (.unread (.ok w.lines) c.lastEventId)) = rest := by
        simp only [upcoming, id, start]
        rw [← whole, List.drop_left]
      change seen ++ ([] ++ upcoming wire (.suspended (.unread (.ok w.lines) c.lastEventId))) <+: _
      rw [ahead, List.nil_append, whole]
  doneFirst := List.nil_prefix
  checkpoint := by
    rw [List.append_nil]
    exact id
  storedFirst := List.nil_prefix
  file := by
    rw [List.append_nil]
    exact ⟨c, loaded, id⟩
  returned := by
    intro e member
    cases member
  saved := by
    intro before e after split
    simp [Daemon.boot] at split
  deciding := by
    intro e phase
    cases phase
  timing := by
    intro phase
    cases phase

theorem identified_of_step {happening : Happening} (next : w.step wire happening = some w')
    (identified : Identified wire w') : Identified wire w := by
  have grows : ∃ more, w'.lines = w.lines ++ more := by
    cases happening with
    | append more =>
      rw [step] at next
      split at next <;> cases next
      exact ⟨more, rfl⟩
    | start cfg unreadable now =>
      rw [step] at next
      split at next
      · split at next <;> cases next
        exact ⟨[], (List.append_nil _).symm⟩
      · cases next
    | input i =>
      rw [step] at next
      split at next
      · cases next
      · obtain ⟨d', _, rfl⟩ := Option.map_eq_some_iff.mp next
        refine ⟨[], ?_⟩
        unfold afterStep
        split <;> exact (List.append_nil _).symm
    | kill =>
      rw [step] at next
      split at next <;> cases next
      exact ⟨[], (List.append_nil _).symm⟩
  obtain ⟨more, shape⟩ := grows
  obtain ⟨distinct, nonempty⟩ := identified
  rw [shape, telemetryEvents_append] at distinct nonempty
  rw [List.map_append] at distinct
  exact ⟨(List.nodup_append.mp distinct).1, fun e member => nonempty e (List.mem_append_left _ member)⟩

theorem resumes_step (resumes : Resumes wire w) (identified : Identified wire w)
    {happening : Happening} (next : w.step wire happening = some w') : Resumes wire w' := by
  obtain ⟨history, host⟩ := resumes
  cases happening with
  | append more =>
    rw [step] at next
    split at next
    · rename_i stateFile idle
      cases next
      rw [idle] at host
      obtain ⟨seen, covered, covers⟩ := host
      constructor
      · intro earlier run later split
        rw [telemetryEvents_append]
        exact (history earlier run later split).append _
      · simp only [idle]
        rw [telemetryEvents_append]
        exact ⟨seen, covered.append _, covers⟩
    · cases next
  | start cfg unreadable now =>
    rw [step] at next
    split at next
    · rename_i stateFile idle
      rw [idle] at host
      obtain ⟨seen, covered, c, loaded, id⟩ := host
      rw [loaded] at next
      cases next
      refine ⟨history, ?_, seen, [], [], serving_boot identified covered loaded id unreadable now⟩
      simp [Daemon.boot]
    · cases next
  | input i =>
    rw [step] at next
    split at next
    · cases next
    · rename_i cfg d running
      rw [running] at host
      obtain ⟨going, seen, done, stored, serving⟩ := host
      obtain ⟨d', stepped, rfl⟩ := Option.map_eq_some_iff.mp next
      unfold afterStep
      split
      · rename_i ended
        obtain ⟨utc, rfl⟩ := finish_of_ended going stepped ended
        obtain ⟨covered, covers, handed⟩ := serving.finish stepped
        exact ⟨history_concat history (serving.goesOn identified.1 handed), _, covered, covers⟩
      · rename_i notEnded
        refine ⟨history, notEnded, seen, ?_⟩
        exact serving.step stepped notEnded
  | kill =>
    rw [step] at next
    split at next
    · cases next
    · rename_i cfg d running
      cases next
      rw [running] at host
      obtain ⟨_, seen, done, stored, serving⟩ := host
      exact ⟨history_concat history (serving.goesOn identified.1 rfl), _, serving.killed, serving.file⟩

theorem covered_stored {events : List TelemetryEvent} {py : Interpreter} {runs : List Run}
    {stateFile : StateFile} (first : seen <+: events)
    (attempted : ∀ e ∈ seen, ∃ run ∈ runs, e ∈ handedEvents run.log)
    (covers : Covers py stateFile seen) : StoredAttempted py events stateFile runs := by
  obtain ⟨c, loaded, id⟩ := covers
  refine ⟨c, loaded, ?_⟩
  rcases List.eq_nil_or_concat seen with rfl | ⟨preceding, e, shape⟩
  · exact Or.inl id
  · rw [List.concat_eq_append] at shape
    subst shape
    obtain ⟨rest, whole⟩ := first
    rw [mark_concat] at id
    exact Or.inr ⟨preceding, e, rest, by simp [← whole], id, attempted⟩

/-- Whatever happens, a daemon that resumes from its state file repeats nothing that an earlier
    run keeps and skips nothing. -/
theorem resume_neither_repeats_nor_skips (wire : Wire) (lines : List (List Char))
    (happenings : List Happening) (w : World)
    (reached : run (World.step wire) { lines } happenings = some w)
    (identified : Identified wire w) :
    (∀ earlier run later, w.runs = earlier ++ run :: later →
      GoesOn (telemetryEvents wire w.lines) earlier run) ∧
    StoredAttempted wire.py (telemetryEvents wire w.lines) w.stateFile w.runs := by
  have invariant : Identified wire w → Resumes wire w := by
    refine run_invariant (fun w => Identified wire w → Resumes wire w) ?_
      (fun _ => resumes_fresh wire lines) reached
    intro w happening w' kept next identified'
    have before := identified_of_step next identified'
    exact resumes_step (kept before) before next
  obtain ⟨history, host⟩ := invariant identified
  cases state : w.host with
  | idle file =>
    rw [state] at host
    obtain ⟨seen, covered, covers⟩ := host
    simp only [runs, stateFile, state]
    exact ⟨history, covered_stored covered.first covered.attempted covers⟩
  | running cfg d =>
    rw [state] at host
    obtain ⟨_, seen, done, stored, serving⟩ := host
    have goes : GoesOn (telemetryEvents wire w.lines) w.past ⟨d.log, .running⟩ :=
      serving.goesOn identified.1 rfl
    have covered := serving.killed
    simp only [runs, stateFile, state]
    refine ⟨history_concat history goes, covered_stored covered.first ?_ serving.file⟩
    intro e member
    obtain ⟨old, among, handed⟩ := covered.attempted e member
    rcases List.mem_append.mp among with before | last
    · exact ⟨old, List.mem_append_left _ before, handed⟩
    · rw [List.mem_singleton.mp last] at handed
      exact ⟨⟨d.log, .running⟩, by simp, handed⟩

/-- A daemon killed inside `process_event` is followed by one that hands the event over again. -/
theorem resume_after_kill : ∃ w,
    run (step sampleWire) { lines := [sampleLine] }
      [.start {} none 0, .input .head, .input .anext, .kill, .start {} none 1, .input .head,
        .input .anext] = some w ∧
    w.runs = [⟨[.handed sampleEvent], .killed⟩, ⟨[.handed sampleEvent], .running⟩] ∧
    (∀ earlier run later, w.runs = earlier ++ run :: later →
      GoesOn (telemetryEvents sampleWire w.lines) earlier run) ∧
    StoredAttempted sampleWire.py (telemetryEvents sampleWire w.lines) w.stateFile w.runs := by
  have next : AsyncGenerator.anext (tolerantFileEvents sampleWire)
      (.suspended (.unread (.ok [sampleLine]) .null)) = some (.event sampleEvent, .suspended (.yielding [])) := by
    simp [AsyncGenerator.anext, tolerantFileEvents, sampleLine_events, resumeStart, Value.truthy,
      yieldNext]
  have reached : ∃ w, run (step sampleWire) { lines := [sampleLine] }
      [.start {} none 0, .input .head, .input .anext, .kill, .start {} none 1, .input .head,
        .input .anext] = some w ∧ w.lines = [sampleLine] ∧
      w.runs = [⟨[.handed sampleEvent], .killed⟩, ⟨[.handed sampleEvent], .running⟩] := by
    simp [run, step, StateCheckpoint.load, Daemon.step, Daemon.boot, afterStep, readLines,
      fileSource, next, Daemon.takeNext, runs]
  obtain ⟨w, reached, lines, runs⟩ := reached
  refine ⟨w, reached, runs, ?_⟩
  apply resume_neither_repeats_nor_skips sampleWire _ _ w reached
  rw [Identified, lines, sampleLine_events]
  simp [sampleEvent]

end World

end HorizonRic.Rapp
