import HorizonRic.Rapp.EventLoop
import HorizonRic.Python.TextFile

/-!
`_tolerant_file_events` of `rapp/daemon.py`: the telemetry events of a JSONL file,
with malformed lines counted and rows of another schema skipped, from the event
after the checkpoint's `last_event_id` on.
-/
namespace HorizonRic.Rapp

open Py Io

/-- What the loop over the lines makes of one of them. -/
inductive Row where
  | telemetry (event : TelemetryEvent)
  | other
  | malformed

/-- Where the body stands: before its file is read, or among its events. -/
inductive FileStream where
  | unread (lines : Except PyErr (List (List Char))) (resumeAfter : Value)
  | yielding (events : List TelemetryEvent)

/-- The lines that `_read_lines` keeps. -/
def solidLines (lines : List (List Char)) : List (List Char) :=
  lines.filter fun line => decide (strip line ≠ [])

/-- The value at `schema` and at `data`, if the object has both. -/
def envelope : Value → Option (Value × Value)
  | .dict d =>
    match Dict.get? "schema" d, Dict.get? "data" d with
    | some schema, some data => some (schema, data)
    | _, _ => none
  | _ => none

/-- The first event with the id is skipped too; an id that does not match skips nothing. -/
def resumeStart (resumeAfter : Value) (events : List TelemetryEvent) : Nat :=
  if resumeAfter.truthy then
    match events.findIdx? fun e => resumeAfter.eqStr e.eventId with
    | some idx => idx + 1
    | none => 0
  else 0

def yieldNext : List TelemetryEvent → Resumed FileStream TelemetryEvent
  | [] => .returns
  | e :: rest => .yields e (.yielding rest)

section
variable (wire : Wire)

def readPayload (v : Value) : Row :=
  match modelValidate wire v with
  | some e => .telemetry e
  | none => .malformed

def readRow (line : List Char) : Row :=
  match Json.loads wire.py line with
  | .error _ => .malformed
  | .ok obj =>
    match envelope obj with
    | some (schema, data) => if schema.eqStr "telemetry" then readPayload wire data else .other
    | none => readPayload wire obj

/-- The events of the file, in order. -/
def telemetryEvents (lines : List (List Char)) : List TelemetryEvent :=
  (solidLines lines).filterMap fun line =>
    match readRow wire line with
    | .telemetry e => some e
    | _ => none

def malformedLines (lines : List (List Char)) : Nat :=
  (solidLines lines).countP fun line =>
    match readRow wire line with
    | .malformed => true
    | _ => false

def tolerantFileEvents : FileStream → Option (Resumed FileStream TelemetryEvent)
  | .unread (.error e) _ => some (.raises e)
  | .unread (.ok lines) resumeAfter =>
    let events := telemetryEvents wire lines
    some (yieldNext (events.drop (resumeStart resumeAfter events)))
  | .yielding events => some (yieldNext events)

def fileSource : Source FileStream where
  body := tolerantFileEvents wire
  skipped
    | .unread (.ok lines) _ => malformedLines wire lines
    | _ => 0

/-- The events that the stream still gives. -/
def upcoming : AsyncGenerator FileStream → List TelemetryEvent
  | .suspended (.unread (.ok lines) resumeAfter) =>
    let events := telemetryEvents wire lines
    events.drop (resumeStart resumeAfter events)
  | .suspended (.yielding events) => events
  | _ => []

end

variable {wire : Wire}

theorem telemetryEvents_append (lines more : List (List Char)) :
    telemetryEvents wire (lines ++ more) = telemetryEvents wire lines ++ telemetryEvents wire more := by
  rw [telemetryEvents, solidLines, List.filter_append, List.filterMap_append]
  rfl

@[simp] theorem upcoming_finished : upcoming wire .finished = [] := rfl

/-- `__anext__` gives the first of the upcoming events, or there are none any more. -/
theorem anext_upcoming {g g' : AsyncGenerator FileStream} {outcome : Anext TelemetryEvent}
    (next : g.anext (tolerantFileEvents wire) = some (outcome, g')) :
    (∃ e, outcome = .event e ∧ upcoming wire g = e :: upcoming wire g') ∨
      (∀ e, outcome ≠ .event e) ∧ g' = .finished := by
  have among : ∀ (s : FileStream) (events : List TelemetryEvent),
      tolerantFileEvents wire s = some (yieldNext events) → upcoming wire (.suspended s) = events →
      AsyncGenerator.anext (tolerantFileEvents wire) (.suspended s) = some (outcome, g') →
      (∃ e, outcome = .event e ∧ upcoming wire (.suspended s) = e :: upcoming wire g') ∨
        (∀ e, outcome ≠ .event e) ∧ g' = .finished := by
    intro s events body ahead next
    rw [AsyncGenerator.anext, body] at next
    rw [ahead]
    cases events with
    | nil =>
      cases next
      exact Or.inr ⟨by simp, rfl⟩
    | cons e rest =>
      cases next
      exact Or.inl ⟨e, rfl, rfl⟩
  match g with
  | .finished =>
    cases next
    exact Or.inr ⟨by simp, rfl⟩
  | .suspended (.unread (.error err) resumeAfter) =>
    cases next
    exact Or.inr ⟨by simp, rfl⟩
  | .suspended (.unread (.ok lines) resumeAfter) => exact among _ _ rfl rfl next
  | .suspended (.yielding events) => exact among _ _ rfl rfl next

/-- The id that a checkpoint holds after these events. -/
def mark (seen : List TelemetryEvent) : Value :=
  match seen.getLast? with
  | some e => .str e.eventId
  | none => .null

@[simp] theorem mark_nil : mark [] = .null := rfl

@[simp] theorem mark_concat (seen : List TelemetryEvent) (e : TelemetryEvent) :
    mark (seen ++ [e]) = .str e.eventId := by
  simp [mark]

/-- Where the ids differ and none is empty, the search for the last id finds its own event. -/
theorem resumeStart_mark {seen rest : List TelemetryEvent}
    (distinct : ((seen ++ rest).map TelemetryEvent.eventId).Nodup)
    (nonempty : ∀ e ∈ seen, e.eventId ≠ "") :
    resumeStart (mark seen) (seen ++ rest) = seen.length := by
  rcases List.eq_nil_or_concat seen with rfl | ⟨before, e, shape⟩
  · rfl
  · rw [List.concat_eq_append] at shape
    subst shape
    have truthy : (Value.str e.eventId).truthy = true := by
      simpa [Value.truthy] using nonempty e (by simp)
    have others : ∀ other ∈ before, (Value.str e.eventId).eqStr other.eventId = false := by
      intro other member
      simp only [List.append_assoc, List.singleton_append, List.map_append, List.map_cons] at distinct
      have apart := (List.nodup_append.mp distinct).2.2 other.eventId
        (List.mem_map_of_mem member) e.eventId List.mem_cons_self
      simpa [Value.eqStr] using Ne.symm apart
    have found : List.findIdx? (fun x : TelemetryEvent => (Value.str e.eventId).eqStr x.eventId)
        (before ++ e :: rest) = some before.length := by
      have before' : List.findIdx? (fun x : TelemetryEvent => (Value.str e.eventId).eqStr x.eventId)
          before = none := List.findIdx?_eq_none_iff.mpr others
      have here : (Value.str e.eventId).eqStr e.eventId = true := by simp [Value.eqStr]
      simp [List.findIdx?_append, before', List.findIdx?_cons, here]
    rw [mark_concat, resumeStart, if_pos truthy, List.append_assoc, List.singleton_append, found,
      List.length_append]
    rfl

def sampleLine : List Char := Json.print sampleWire.py Json.spaced (.dict sampleFields) ++ ['\n']

theorem sampleLine_events : telemetryEvents sampleWire [sampleLine] = [sampleEvent] := by
  have readable : Json.Readable sampleWire.py (.dict sampleFields) := by
    rw [Json.readable_dict]
    simp [sampleFields, Json.Readable]
  have loaded : Json.loads sampleWire.py sampleLine = .ok (.dict sampleFields) := by
    apply Json.loads_print_space _ Json.spaced_plain readable
    intro c member
    rw [List.mem_singleton.mp member]
    rfl
  have solid : strip sampleLine ≠ [] := by
    have stripped : strip ([] ++ sampleLine) =
        Json.print sampleWire.py Json.spaced (.dict sampleFields) :=
      Json.strip_print_dict sampleWire.py Json.spaced sampleFields (by simp)
        (List.forall_mem_singleton.mpr rfl)
    rw [List.nil_append] at stripped
    rw [stripped]
    exact List.cons_ne_nil _ _
  have row : readRow sampleWire sampleLine = .telemetry sampleEvent := by
    rw [readRow, loaded]
    simp only [envelope, sampleFields, Dict.get?_cons]
    rfl
  simp [telemetryEvents, solidLines, solid, row]

end HorizonRic.Rapp
