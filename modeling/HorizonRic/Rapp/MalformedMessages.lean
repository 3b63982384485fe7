import HorizonRic.Rapp.EventLoop
import HorizonRic.Io.KafkaConnector

/-!
Malformed Kafka messages in the event loop. A message that does not parse leaves
`KafkaSource.stream` as an exception, which finishes its generator: the loop
counts that message, and the next `__anext__` ends it.
-/
namespace HorizonRic.Rapp

open Py Io Machine

def kafkaSource (wire : Wire) : Source KafkaStream := { body := stream wire }

/-- The loop was left, or it waits for a message that does not come. -/
def Daemon.Settled (source : Source σ) (d : Daemon σ) : Prop :=
  d.phase = .leaving ∨ d.phase = .ended ∨
    d.phase = .racing ∧ d.stream.anext source.body = none

section
variable (wire : Wire)

/-- The events of the messages that parse. -/
def validEvents (values : List (Option Bytes)) : List TelemetryEvent :=
  values.filterMap (modelValidateJson wire)

def isMalformed (value : Option Bytes) : Bool := (modelValidateJson wire value).isNone

/-- In every run without a stop signal and a once-limit that has settled, the events handed to
    the pipeline are those of the valid messages, and the counter is the number of the others. -/
def SurvivesMalformed (py : Interpreter) (values : List (Option Bytes)) : Prop :=
  ∀ (interval : Number) (limit : Int) (checkpoint : StateCheckpoint) (stateFile : StateFile) (now : ℚ)
    (inputs : List Input) (d : Daemon KafkaStream), .signal ∉ inputs →
    run (Daemon.step py (kafkaSource wire) ⟨interval, false, limit⟩)
      (.boot (.suspended (.start true values)) checkpoint stateFile now) inputs = some d →
    d.Settled (kafkaSource wire) →
    handedEvents d.log = validEvents wire values ∧
      d.malformed = values.countP (isMalformed wire)

/-- The stream has these messages before it. -/
def Unread (values : List (Option Bytes)) (g : AsyncGenerator KafkaStream) : Prop :=
  g = .suspended (.start true values) ∨ g = .suspended (.consuming values)

/-- The messages of `read` were handed over; then the stream goes on, or a malformed one
    finished it. -/
structure Reading (values : List (Option Bytes)) (d : Daemon KafkaStream)
    (read rest : List (Option Bytes)) : Prop where
  split : values = read ++ rest
  valid : ∀ value ∈ read, isMalformed wire value = false
  handed : handedEvents d.log = validEvents wire read
  going : Unread rest d.stream ∧ d.malformed = 0 ∧ d.phase ≠ .leaving ∧ d.phase ≠ .ended ∨
    ∃ bad after, rest = bad :: after ∧ isMalformed wire bad = true ∧ d.stream = .finished ∧
      d.malformed = 1
  running : d.stop = false

end

variable {wire : Wire} {py : Interpreter} {values read rest : List (Option Bytes)}

theorem unread_nil {g : AsyncGenerator KafkaStream} (unread : Unread [] g) :
    g.anext (stream wire) = none := by
  rcases unread with rfl | rfl <;> rfl

theorem unread_valid {g : AsyncGenerator KafkaStream} {value : Option Bytes} {e : TelemetryEvent}
    (unread : Unread (value :: rest) g) (parsed : modelValidateJson wire value = some e) :
    g.anext (stream wire) = some (.event e, .suspended (.consuming rest)) := by
  rcases unread with rfl | rfl <;> simp [AsyncGenerator.anext, stream, consume, parsed]

theorem unread_malformed {g : AsyncGenerator KafkaStream} {value : Option Bytes}
    (unread : Unread (value :: rest) g) (bad : modelValidateJson wire value = none) :
    g.anext (stream wire) = some (.raised (.other "ConnectorIOError"), .finished) := by
  rcases unread with rfl | rfl <;> simp [AsyncGenerator.anext, stream, consume, bad]

theorem isMalformed_iff (value : Option Bytes) :
    isMalformed wire value = true ↔ modelValidateJson wire value = none := by
  simp [isMalformed]

namespace Reading
variable {d d' : Daemon KafkaStream} {interval : Number} {limit : Int}

/-- A step that leaves the stream, the counter and the handed events alone, and the loop running. -/
theorem keep (h : Reading wire values d read rest) (stream : d'.stream = d.stream)
    (malformed : d'.malformed = d.malformed) (stop : d'.stop = d.stop)
    (handed : handedEvents d'.log = handedEvents d.log)
    (phase : d.stream ≠ .finished → d'.phase ≠ .leaving ∧ d'.phase ≠ .ended) :
    Reading wire values d' read rest := by
  refine ⟨h.split, h.valid, handed.trans h.handed, ?_, stop.trans h.running⟩
  rw [stream, malformed]
  rcases h.going with ⟨unread, none', _, _⟩ | ended
  · have suspended : d.stream ≠ .finished := by
      rcases unread with same | same <;> simp [same]
    exact Or.inl ⟨unread, none', phase suspended⟩
  · exact Or.inr ended

theorem anext (h : Reading wire values d read rest)
    (next : d.step py (kafkaSource wire) ⟨interval, false, limit⟩ .anext = some d') :
    ∃ read' rest', Reading wire values d' read' rest' := by
  obtain ⟨_, outcome, stream', taken, rfl⟩ := Daemon.step_anext next
  have uncounted : (kafkaSource wire).counted d.stream = 0 := by
    cases d.stream <;> rfl
  rw [uncounted, Nat.add_zero]
  change d.stream.anext (stream wire) = _ at taken
  rcases h.going with ⟨unread, none', _, _⟩ | ended
  · cases rest with
    | nil =>
      rw [unread_nil unread] at taken
      cases taken
    | cons value rest =>
      cases parsed : modelValidateJson wire value with
      | some e =>
        rw [unread_valid unread parsed] at taken
        cases taken
        have valid : isMalformed wire value = false := by
          rw [isMalformed, parsed]
          rfl
        refine ⟨read ++ [value], rest, ?_, ?_, ?_, ?_, h.running⟩
        · rw [h.split, List.append_assoc, List.singleton_append]
        · intro other member
          rcases List.mem_append.mp member with old | new
          · exact h.valid other old
          · rw [List.mem_singleton.mp new]
            exact valid
        · simp [Daemon.takeNext, h.handed, validEvents, parsed]
        · exact Or.inl ⟨Or.inr rfl, none', by simp [Daemon.takeNext], by simp [Daemon.takeNext]⟩
      | none =>
        rw [unread_malformed unread parsed] at taken
        cases taken
        refine ⟨read, value :: rest, h.split, h.valid, h.handed, Or.inr ?_, h.running⟩
        refine ⟨value, rest, rfl, (isMalformed_iff value).mpr parsed, rfl, ?_⟩
        change d.malformed + 1 = 1
        rw [none']
  · obtain ⟨bad, after, shape, malformed, finished, once'⟩ := ended
    rw [finished] at taken
    cases taken
    refine ⟨read, rest, h.split, h.valid, h.handed, Or.inr ?_, h.running⟩
    exact ⟨bad, after, shape, malformed, rfl, once'⟩

/-- One step without a signal: only `__anext__` moves through the messages. -/
theorem step (h : Reading wire values d read rest) {input : Input} (quiet : input ≠ .signal)
    (next : d.step py (kafkaSource wire) ⟨interval, false, limit⟩ input = some d') :
    ∃ read' rest', Reading wire values d' read' rest' := by
  cases input with
  | signal => exact absurd rfl quiet
  | anext => exact h.anext next
  | head =>
    obtain ⟨_, rfl⟩ := Daemon.step_head next
    refine ⟨read, rest, h.keep rfl rfl rfl rfl ?_⟩
    intro _
    simp [h.running]
  | stopped =>
    obtain ⟨stop, _⟩ := Daemon.step_stopped next
    rw [h.running] at stop
    cases stop
  | result r =>
    obtain ⟨e, _, rfl⟩ := Daemon.step_result next
    obtain ⟨stream, malformed, stop, _⟩ := d.tally_frame r
    refine ⟨read, rest, h.keep stream malformed stop (by simp) ?_⟩
    intro _
    simp
  | raises =>
    obtain ⟨e, _, rfl⟩ := Daemon.step_raises next
    refine ⟨read, rest, h.keep rfl rfl rfl (by simp) ?_⟩
    intro _
    simp
  | clock now utc =>
    obtain ⟨_, rfl | ⟨saved, written, rfl⟩⟩ := Daemon.step_clock next
    · refine ⟨read, rest, h.keep rfl rfl rfl rfl ?_⟩
      intro _
      simp [Daemon.afterEvent]
    · obtain ⟨checkpoint, text, _, rfl⟩ := Daemon.saveState_some written
      refine ⟨read, rest, h.keep rfl rfl rfl (by simp [Daemon.afterEvent]) ?_⟩
      intro _
      simp [Daemon.afterEvent]
  | finish utc =>
    obtain ⟨leaving, saved, written, rfl⟩ := Daemon.step_finish next
    obtain ⟨checkpoint, text, _, rfl⟩ := Daemon.saveState_some written
    refine ⟨read, rest, h.keep rfl rfl rfl (by simp) ?_⟩
    intro suspended
    exfalso
    rcases h.going with ⟨_, _, notLeaving, _⟩ | ⟨_, _, _, _, finished, _⟩
    · exact notLeaving leaving
    · exact suspended finished

theorem start (wire : Wire) (values : List (Option Bytes)) (checkpoint : StateCheckpoint)
    (stateFile : StateFile) (now : ℚ) :
    Reading wire values (.boot (.suspended (.start true values)) checkpoint stateFile now) []
      values where
  split := rfl
  valid := by simp
  handed := rfl
  going := by
    left
    refine ⟨Or.inl rfl, rfl, ?_, ?_⟩ <;> simp [Daemon.boot]
  running := rfl

theorem run {inputs : List Input} (h : Reading wire values d read rest)
    (quiet : .signal ∉ inputs)
    (reached : Machine.run (Daemon.step py (kafkaSource wire) ⟨interval, false, limit⟩) d inputs
      = some d') : ∃ read' rest', Reading wire values d' read' rest' := by
  have along : Along (Daemon.step py (kafkaSource wire) ⟨interval, false, limit⟩)
      (fun _ input => input ≠ .signal) d inputs := by
    refine along_iff.mpr fun before input after s shape _ => ?_
    rintro rfl
    exact quiet (by simp [shape])
  refine run_keeps (fun d => ∃ read rest, Reading wire values d read rest) ?_ ⟨read, rest, h⟩ along
    reached
  rintro s input s' ⟨read, rest, reading⟩ met next
  exact reading.step met next

/-- A settled loop has read every message, or stopped at the first malformed one. -/
theorem settled (h : Reading wire values d read rest) (quiet : d.Settled (kafkaSource wire)) :
    handedEvents d.log = validEvents wire read ∧
      (rest = [] ∧ d.malformed = 0 ∨
        ∃ bad after, rest = bad :: after ∧ isMalformed wire bad = true ∧ d.malformed = 1) := by
  refine ⟨h.handed, ?_⟩
  rcases h.going with ⟨unread, none', notLeaving, notEnded⟩ | ⟨bad, after, shape, bad', _, one⟩
  · rcases quiet with leaving | ended | ⟨_, waits⟩
    · exact absurd leaving notLeaving
    · exact absurd ended notEnded
    · cases rest with
      | nil => exact Or.inl ⟨rfl, none'⟩
      | cons value rest =>
        exfalso
        change d.stream.anext (stream wire) = none at waits
        cases parsed : modelValidateJson wire value with
        | some e =>
          rw [unread_valid unread parsed] at waits
          cases waits
        | none =>
          rw [unread_malformed unread parsed] at waits
          cases waits
  · exact Or.inr ⟨bad, after, shape, bad', one⟩

end Reading

theorem validEvents_append (values more : List (Option Bytes)) :
    validEvents wire (values ++ more) = validEvents wire values ++ validEvents wire more :=
  List.filterMap_append

theorem countP_valid (valid : ∀ value ∈ values, isMalformed wire value = false) :
    values.countP (isMalformed wire) = 0 := by
  rw [List.countP_eq_zero]
  intro value member
  simp [valid value member]

theorem validEvents_length (wire : Wire) (values : List (Option Bytes)) :
    (validEvents wire values).length + values.countP (isMalformed wire) = values.length := by
  induction values with
  | nil => rfl
  | cons value rest ih =>
    rw [← List.singleton_append, validEvents_append, List.length_append, List.countP_append,
      List.length_append, ← ih]
    have one : (validEvents wire [value]).length + [value].countP (isMalformed wire) = 1 := by
      cases parsed : modelValidateJson wire value <;> simp [validEvents, isMalformed, parsed]
    simp only [List.length_singleton]
    omega

/-- From the head of the loop a run that raises on every event settles. -/
theorem exists_settled (wire : Wire) (py : Interpreter) (cfg : DaemonConfig) {d : Daemon KafkaStream}
    (unread : Unread values d.stream) (head : d.phase = .looping) (running : d.stop = false) :
    ∃ inputs d', .signal ∉ inputs ∧
      run (Daemon.step py (kafkaSource wire) cfg) d inputs = some d' ∧
      d'.Settled (kafkaSource wire) := by
  induction values generalizing d with
  | nil =>
    refine ⟨[.head], { d with phase := .racing }, by simp, ?_, Or.inr (Or.inr ⟨rfl, ?_⟩)⟩
    · simp [run, Daemon.step, head, running]
    · exact unread_nil unread
  | cons value rest ih =>
    cases parsed : modelValidateJson wire value with
    | some e =>
      have next : d.stream.anext (kafkaSource wire).body =
          some (.event e, .suspended (.consuming rest)) := unread_valid unread parsed
      have first : ∃ d', run (Daemon.step py (kafkaSource wire) cfg) d [.head, .anext, .raises]
          = some d' ∧ d'.stream = .suspended (.consuming rest) ∧ d'.phase = .looping ∧
            d'.stop = false := by
        simp [run, Daemon.step, head, running, next, Daemon.takeNext]
      obtain ⟨d', reached, stream, head', running'⟩ := first
      obtain ⟨inputs, d'', quiet, rest', settled⟩ := ih (Or.inr stream) head' running'
      refine ⟨[.head, .anext, .raises] ++ inputs, d'', ?_, ?_, settled⟩
      · simp [quiet]
      · rw [run_append, reached]
        exact rest'
    | none =>
      have next : d.stream.anext (kafkaSource wire).body =
          some (.raised (.other "ConnectorIOError"), .finished) := unread_malformed unread parsed
      have left : ∃ d', run (Daemon.step py (kafkaSource wire) cfg) d [.head, .anext, .head, .anext]
          = some d' ∧ d'.phase = .leaving := by
        simp [run, Daemon.step, head, running, next, Daemon.takeNext]
      obtain ⟨d', reached, leaving⟩ := left
      exact ⟨_, d', by simp, reached, Or.inl leaving⟩

/-- The daemon survives malformed messages exactly when no message follows one. -/
theorem survives_iff_malformed_last (wire : Wire) (py : Interpreter)
    (values : List (Option Bytes)) :
    SurvivesMalformed wire py values ↔
      ∀ before bad after, values = before ++ bad :: after → modelValidateJson wire bad = none →
        after = [] := by
  constructor
  · intro survives before bad after shape malformed
    obtain ⟨inputs, d, quiet, reached, settled⟩ := exists_settled wire py ⟨.fin 30, false, 10⟩
      (d := .boot (.suspended (.start true values)) {} .missing 0) (Or.inl rfl) rfl rfl
    obtain ⟨handed, counted⟩ := survives _ _ _ _ _ inputs d quiet reached settled
    obtain ⟨read, rest, reading⟩ := (Reading.start wire values {} .missing 0).run quiet reached
    obtain ⟨handed', stopped⟩ := reading.settled settled
    have lengths := validEvents_length wire values
    have lengths' := validEvents_length wire read
    rw [countP_valid reading.valid, Nat.add_zero] at lengths'
    rw [← handed, ← counted, handed', lengths', reading.split, List.length_append] at lengths
    have isBad := (isMalformed_iff bad).mpr malformed
    rcases stopped with ⟨rfl, _⟩ | ⟨bad', after', rfl, _, one⟩
    · have member : bad ∈ read := by
        have same := reading.split
        rw [shape, List.append_nil] at same
        rw [← same]
        simp
      rw [reading.valid bad member] at isBad
      cases isBad
    · have last : after' = [] := by
        rw [one, List.length_cons] at lengths
        exact List.length_eq_zero_iff.mp (by omega)
      subst last
      by_contra more
      obtain ⟨init, final, rfl⟩ := (List.eq_nil_or_concat after).resolve_left more
      have same : read = before ++ bad :: init := by
        have both := shape.symm.trans reading.split
        rw [List.concat_eq_append, ← List.cons_append, ← List.append_assoc] at both
        exact (List.append_inj' both rfl).1.symm
      rw [reading.valid bad (by simp [same])] at isBad
      cases isBad
  · intro last interval limit checkpoint stateFile now inputs d quiet reached settled
    obtain ⟨read, rest, reading⟩ :=
      (Reading.start wire values checkpoint stateFile now).run quiet reached
    obtain ⟨handed, stopped⟩ := reading.settled settled
    rcases stopped with ⟨rfl, none'⟩ | ⟨bad, after, rfl, malformed, one⟩
    · have all : values = read := by rw [reading.split, List.append_nil]
      subst all
      exact ⟨handed, by rw [none', countP_valid reading.valid]⟩
    · have isNone := (isMalformed_iff bad).mp malformed
      have final := last read bad after reading.split isNone
      subst final
      rw [reading.split, validEvents_append, List.countP_append, countP_valid reading.valid]
      constructor
      · rw [handed]
        simp [validEvents, isNone]
      · rw [one]
        simp [isMalformed, isNone]

theorem sampleMessage_parses : modelValidateJson sampleWire (some sampleMessage) = some sampleEvent := by
  simp only [modelValidateJson, sampleMessage_scanned, Option.bind_eq_bind, Option.bind_some]
  exact sampleFields_validate _

/-- A null message before a valid one: the event of the second is never handed over. -/
theorem valid_after_malformed_lost :
    ¬ SurvivesMalformed sampleWire sampleWire.py [none, some sampleMessage] := by
  intro survives
  have reached : ∃ d, run (Daemon.step sampleWire.py (kafkaSource sampleWire)
      ⟨.fin 30, false, 10⟩)
      (.boot (.suspended (.start true [none, some sampleMessage])) {} .missing 0)
      [.head, .anext, .head, .anext] = some d ∧ d.phase = .leaving ∧ d.log = [] := by
    have bad : modelValidateJson sampleWire none = none := rfl
    have next : AsyncGenerator.anext (stream sampleWire)
        (.suspended (.start true [none, some sampleMessage])) =
          some (.raised (.other "ConnectorIOError"), .finished) :=
      unread_malformed (Or.inl rfl) bad
    simp [run, Daemon.step, Daemon.boot, kafkaSource, next, Daemon.takeNext]
  obtain ⟨d, reached, leaving, empty⟩ := reached
  have handed := (survives _ _ _ _ _ _ d (by simp) reached (Or.inl leaving)).1
  have expected : validEvents sampleWire [none, some sampleMessage] = [sampleEvent] := by
    rw [validEvents, List.filterMap_cons_none rfl, List.filterMap_cons_some sampleMessage_parses]
    rfl
  rw [empty, expected] at handed
  cases handed

end HorizonRic.Rapp
