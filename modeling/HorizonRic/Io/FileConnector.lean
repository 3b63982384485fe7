import HorizonRic.Library.Machine
import HorizonRic.Rapp.TolerantFile

/-!
`FileSink` and `FileSource` of `io/connectors/file_connector.py`. A write computes
its line, waits for the lock and appends; `stream` reads the whole file, skips
the rows of another schema and raises at the first row it cannot read. The file
is the text that UTF-8 decodes from it.
-/
namespace HorizonRic.Io

open Py Json Evidence Rapp

/-! The other messages of `io/schemas.py`. Timestamps are ISO texts. -/

structure FeatureFrame where
  schemaVersion : String := schemaVersionDefault
  frameId : String
  windowStartUtc : String
  windowEndUtc : String
  modalitiesPresent : List Modality
  nEvents : Int
  payload : Dict Value := []
  extra : Dict Value := []

structure PolicyAction where
  schemaVersion : String := schemaVersionDefault
  actionId : String
  policyType : String
  policyPayload : Dict Value
  decisionId : Option String := none
  issuedAtUtc : String
  extra : Dict Value := []

structure AuditRecord where
  schemaVersion : String := schemaVersionDefault
  recordId : String
  decisionRecord : Dict Value
  extra : Dict Value := []

def FeatureFrame.items (f : FeatureFrame) : Dict Value :=
  [("schema_version", .str f.schemaVersion), ("frame_id", .str f.frameId),
    ("window_start_utc", .str f.windowStartUtc), ("window_end_utc", .str f.windowEndUtc),
    ("modalities_present", .list (f.modalitiesPresent.map fun m => .str m.literal)),
    ("n_events", .int f.nEvents), ("payload", jsonAny (.dict f.payload))] ++ jsonAnyItems f.extra

def PolicyAction.items (a : PolicyAction) : Dict Value :=
  [("schema_version", .str a.schemaVersion), ("action_id", .str a.actionId),
    ("policy_type", .str a.policyType), ("policy_payload", jsonAny (.dict a.policyPayload)),
    ("decision_id", jsonOption Value.str a.decisionId),
    ("issued_at_utc", .str a.issuedAtUtc)] ++ jsonAnyItems a.extra

def AuditRecord.items (r : AuditRecord) : Dict Value :=
  [("schema_version", .str r.schemaVersion), ("record_id", .str r.recordId),
    ("decision_record", jsonAny (.dict r.decisionRecord))] ++ jsonAnyItems r.extra

inductive Message where
  | telemetry (event : TelemetryEvent)
  | featureFrame (frame : FeatureFrame)
  | policyAction (action : PolicyAction)
  | audit (record : AuditRecord)

/-- The classes of `_SCHEMA_FOR`. -/
inductive Schema where
  | telemetry
  | featureFrame
  | policyAction
  | audit
  deriving DecidableEq

def Schema.tag : Schema → String
  | .telemetry => "telemetry"
  | .featureFrame => "feature_frame"
  | .policyAction => "policy_action"
  | .audit => "audit"

def Schema.all : List Schema := [.telemetry, .featureFrame, .policyAction, .audit]

/-- `_SCHEMA_FOR.get(tag)`: a list or a mapping has no hash. -/
def schemaFor (tag : Value) : Except PyErr (Option Schema) :=
  match tag with
  | .list _ => .error .typeError
  | .dict _ => .error .typeError
  | _ => .ok (Schema.all.find? fun s => tag.eqStr s.tag)

namespace Message

/-- The first class of `_SCHEMA_FOR` that the message is an instance of. -/
def schema : Message → Schema
  | .telemetry _ => .telemetry
  | .featureFrame _ => .featureFrame
  | .policyAction _ => .policyAction
  | .audit _ => .audit

/-- `message.model_dump(mode="json")`. -/
def modelDump : Message → Value
  | .telemetry event => .dict event.items
  | .featureFrame frame => .dict frame.items
  | .policyAction action => .dict action.items
  | .audit record => .dict record.items

def telemetry? : Message → Option TelemetryEvent
  | .telemetry event => some event
  | _ => none

def object (m : Message) : Value := .dict [("schema", .str m.schema.tag), ("data", m.modelDump)]

/-- `json.dumps` refuses an integer that is too long to print. -/
def line (py : Interpreter) (m : Message) : Except PyErr (List Char) :=
  if m.object.digitsOk then .ok (print py spaced m.object ++ ['\n']) else .error .valueError

end Message

/-! `FileSink`. -/

/-- A call of `write` past its line: what it still has to put into the file. -/
structure Writer where
  message : Message
  rest : List Char

/-- The sink and its file. The first of the writers holds the lock, the others wait in the order
    in which they came. -/
structure FileSink where
  started : Bool
  content : List Char
  writers : List Writer
  /-- The messages whose `write` has returned. -/
  written : List Message

/-- `connect`: a file that does not exist is created empty. -/
def FileSink.connect (file : Option (List Char)) : FileSink := ⟨true, file.getD [], [], []⟩

/-- `write` up to the lock. -/
def FileSink.write (py : Interpreter) (sink : FileSink) (m : Message) : Except PyErr FileSink := do
  if sink.started then
    let line ← m.line py
    .ok { sink with writers := sink.writers ++ [⟨m, line⟩] }
  else
    .error (.other "ConnectorIOError")

inductive SinkStep where
  | call (m : Message)
  /-- The file gets that many more characters of the line that is being appended. -/
  | append (n : ℕ)
  | returns
  | close

/-- One step; none where nobody could take it. A call that raises changes nothing. -/
def FileSink.step (py : Interpreter) (sink : FileSink) : SinkStep → Option FileSink
  | .call m =>
    match sink.write py m with
    | .ok sink' => some sink'
    | .error _ => some sink
  | .append n =>
    match sink.writers with
    | [] => none
    | w :: ws =>
      some { sink with
        content := sink.content ++ w.rest.take n, writers := ⟨w.message, w.rest.drop n⟩ :: ws }
  | .returns =>
    match sink.writers with
    | [] => none
    | w :: ws =>
      if w.rest = [] then some { sink with writers := ws, written := sink.written ++ [w.message] }
      else none
  | .close => some { sink with started := false }

/-- The messages of the calls that do not raise, in the order of the calls. -/
def accepted : Bool → List SinkStep → List Message
  | _, [] => []
  | started, .call m :: steps =>
    if started = true ∧ m.object.digitsOk = true then m :: accepted started steps
    else accepted started steps
  | _, .close :: steps => accepted false steps
  | started, _ :: steps => accepted started steps

/-! `FileSource`. -/

/-- Where the body of `stream` stands: before its file is read, or in its loop. -/
inductive FileReading where
  | start (started : Bool) (lines : Except PyErr (List (List Char)))
  | reading (lines : List (List Char))

section
variable (wire : Wire)

def validated (v : Value) : Except PyErr (Option TelemetryEvent) :=
  match modelValidate wire v with
  | some event => .ok (some event)
  | none => .error .validationError

/-- One line: an event, or a row of another schema. -/
def readLine (line : List Char) : Except PyErr (Option TelemetryEvent) :=
  match loads wire.py line with
  | .error e => .error e
  | .ok obj =>
    match envelope obj with
    | none => validated wire obj
    | some (schema, data) =>
      match schemaFor schema with
      | .error e => .error e
      | .ok none => .error (.other "ConnectorIOError")
      | .ok (some .telemetry) => validated wire data
      | .ok (some _) => .ok none

def streamLines : List (List Char) → Resumed FileReading TelemetryEvent
  | [] => .returns
  | line :: lines =>
    match readLine wire line with
    | .error e => .raises e
    | .ok none => streamLines lines
    | .ok (some event) => .yields event (.reading lines)

/-- `FileSource.stream`. -/
def fileStream : FileReading → Option (Resumed FileReading TelemetryEvent)
  | .start false _ => some (.raises (.other "ConnectorIOError"))
  | .start true (.error e) => some (.raises e)
  | .start true (.ok lines) => some (streamLines wire (Rapp.solidLines lines))
  | .reading lines => some (streamLines wire lines)

end

/-! Runs of the sink. -/

section
variable {py : Interpreter} {sink sink' : FileSink}

def Message.text (py : Interpreter) (m : Message) : List Char := print py spaced m.object ++ ['\n']

def FileSink.messages (sink : FileSink) : List Message :=
  sink.written ++ sink.writers.map Writer.message

theorem line_eq_ok {m : Message} {line : List Char} :
    m.line py = .ok line ↔ m.object.digitsOk = true ∧ line = m.text py := by
  unfold Message.line Message.text
  by_cases digits : m.object.digitsOk = true
  · rw [if_pos digits, Except.ok.injEq]
    simp only [digits, true_and]
    exact eq_comm
  · rw [if_neg digits]
    simp [digits]

theorem write_cases (py : Interpreter) (sink : FileSink) (m : Message) :
    (sink.started = true ∧ m.object.digitsOk = true ∧
      sink.write py m = .ok { sink with writers := sink.writers ++ [⟨m, m.text py⟩] }) ∨
    (¬(sink.started = true ∧ m.object.digitsOk = true) ∧ ∃ e, sink.write py m = .error e) := by
  unfold FileSink.write
  by_cases started : sink.started = true
  · rw [if_pos started]
    cases written : m.line py with
    | ok line =>
      obtain ⟨digits, rfl⟩ := line_eq_ok.mp written
      exact Or.inl ⟨started, digits, rfl⟩
    | error e =>
      refine Or.inr ⟨fun both => ?_, e, rfl⟩
      have ok : m.line py = .ok (m.text py) := line_eq_ok.mpr ⟨both.2, rfl⟩
      rw [written] at ok
      cases ok
  · rw [if_neg started]
    exact Or.inr ⟨fun both => started both.1, _, rfl⟩

/-- The file is the lines of all messages, less what the writers still have to put into it. -/
structure FileSink.Whole (py : Interpreter) (sink : FileSink) : Prop where
  content : sink.content ++ sink.writers.flatMap Writer.rest = sink.messages.flatMap (Message.text py)
  digits : ∀ m ∈ sink.messages, m.object.digitsOk = true

theorem whole_connect : (FileSink.connect none).Whole py where
  content := rfl
  digits _ member := by cases member

/-- What a step does to the messages and to the text that is written or waits. -/
theorem step_cases {step : SinkStep} (next : sink.step py step = some sink') :
    (∃ m, step = .call m ∧ sink.started = true ∧ m.object.digitsOk = true ∧
      sink' = { sink with writers := sink.writers ++ [⟨m, m.text py⟩] }) ∨
    (sink'.messages = sink.messages ∧ (∀ steps, accepted sink.started (step :: steps) =
        accepted sink'.started steps) ∧
      sink'.content ++ sink'.writers.flatMap Writer.rest =
        sink.content ++ sink.writers.flatMap Writer.rest) := by
  cases step with
  | call m =>
    rcases write_cases py sink m with ⟨started, digits, ok⟩ | ⟨refused, e, error⟩
    · simp only [FileSink.step, ok, Option.some.injEq] at next
      exact Or.inl ⟨m, rfl, started, digits, next.symm⟩
    · simp only [FileSink.step, error, Option.some.injEq] at next
      subst next
      exact Or.inr ⟨rfl, fun steps => by rw [accepted, if_neg refused], rfl⟩
  | append n =>
    unfold FileSink.step at next
    cases writers : sink.writers with
    | nil => simp [writers] at next
    | cons w ws =>
      simp only [writers, Option.some.injEq] at next
      subst next
      refine Or.inr ⟨?_, fun _ => rfl, ?_⟩
      · simp [FileSink.messages, writers]
      · simp only [List.flatMap_cons, List.append_assoc]
        rw [← List.append_assoc (w.rest.take n), List.take_append_drop]
  | returns =>
    unfold FileSink.step at next
    cases writers : sink.writers with
    | nil => simp [writers] at next
    | cons w ws =>
      simp only [writers, Option.ite_none_right_eq_some, Option.some.injEq] at next
      obtain ⟨empty, rfl⟩ := next
      refine Or.inr ⟨?_, fun _ => rfl, ?_⟩
      · simp [FileSink.messages, writers]
      · simp [empty]
  | close =>
    cases next
    exact Or.inr ⟨rfl, fun _ => rfl, rfl⟩

theorem whole_step {step : SinkStep} (whole : sink.Whole py)
    (next : sink.step py step = some sink') : sink'.Whole py := by
  rcases step_cases next with ⟨m, rfl, _, digits, rfl⟩ | ⟨messages, _, content⟩
  · have more : FileSink.messages { sink with writers := sink.writers ++ [⟨m, m.text py⟩] } =
        sink.messages ++ [m] := by
      simp [FileSink.messages]
    constructor
    · have before := whole.content
      simp only [more, List.flatMap_append, List.flatMap_singleton, ← before, List.append_assoc]
    · rw [more]
      intro other member
      rcases List.mem_append.mp member with old | new
      · exact whole.digits other old
      · rwa [List.mem_singleton.mp new]
  · constructor
    · rw [content, messages]
      exact whole.content
    · rw [messages]
      exact whole.digits

theorem whole_run {steps : List SinkStep} (whole : sink.Whole py)
    (run : Machine.run (FileSink.step py) sink steps = some sink') : sink'.Whole py :=
  Machine.run_invariant (FileSink.Whole py) (fun _ _ _ whole next => whole_step whole next) whole run

/-- The lock is fair: messages are written in the order in which `write` was called. -/
theorem messages_run {steps : List SinkStep}
    (run : Machine.run (FileSink.step py) sink steps = some sink') :
    sink'.messages = sink.messages ++ accepted sink.started steps := by
  induction steps generalizing sink with
  | nil =>
    cases run
    simp [accepted]
  | cons step steps ih =>
    obtain ⟨middle, next, run⟩ := Machine.run_cons_eq_some.mp run
    rw [ih run]
    rcases step_cases next with ⟨m, rfl, started, digits, rfl⟩ | ⟨messages, accepts, _⟩
    · rw [accepted, if_pos ⟨started, digits⟩]
      simp [FileSink.messages]
    · rw [messages, accepts]

/-- Where every write has returned, the file is the lines of the accepted messages. -/
theorem content_of_run {steps : List SinkStep}
    (run : Machine.run (FileSink.step py) (FileSink.connect none) steps = some sink)
    (complete : sink.writers = []) :
    sink.written = accepted true steps ∧ sink.content = sink.written.flatMap (Message.text py) ∧
      ∀ m ∈ sink.written, m.object.digitsOk = true := by
  have whole := whole_run whole_connect run
  have messages : sink.messages = sink.written := by simp [FileSink.messages, complete]
  refine ⟨?_, ?_, ?_⟩
  · rw [← messages, messages_run run]
    rfl
  · rw [← messages, ← whole.content, complete]
    simp
  · rw [← messages]
    exact whole.digits

end
end HorizonRic.Io
