import HorizonRic.Io.FileConnector

/-!
What goes through a `FileSink` comes back: `FileSource.stream` and the daemon's
`_tolerant_file_events` each give the telemetry events that were written, and no
line is malformed. An event may have any further fields; its line is one line of
ASCII whatever its texts hold.
-/
namespace HorizonRic.Io

open Py Json Evidence Rapp AsyncGenerator

mutual
/-- Every number in it is finite. -/
def finiteNumbers : Value → Bool
  | .float x => x.isFinite
  | .list xs => finiteList xs
  | .dict items => finiteItems items
  | _ => true

def finiteList : List Value → Bool
  | [] => true
  | x :: xs => finiteNumbers x && finiteList xs

def finiteItems : List (String × Value) → Bool
  | [] => true
  | (_, x) :: rest => finiteNumbers x && finiteItems rest
end

theorem finiteList_iff (xs : List Value) :
    finiteList xs = true ↔ ∀ x ∈ xs, finiteNumbers x = true := by
  induction xs with
  | nil => simp [finiteList]
  | cons x xs ih => simp [finiteList, ih]

theorem finiteItems_iff (items : Dict Value) :
    finiteItems items = true ↔ ∀ item ∈ items, finiteNumbers item.2 = true := by
  induction items with
  | nil => simp [finiteItems]
  | cons item items ih => simp [finiteItems, ih]

theorem jsonAny_finite {v : Value} (finite : finiteNumbers v = true) : jsonAny v = v := by
  induction v using Value.nested_induction with
  | float x =>
    cases x with
    | fin q => rfl
    | nan => cases finite
    | inf s => cases finite
  | list xs ih =>
    rw [finiteNumbers, finiteList_iff] at finite
    rw [jsonAny_list, List.map_congr_left fun x member => ih x member (finite x member),
      List.map_id']
  | dict items ih =>
    rw [finiteNumbers, finiteItems_iff] at finite
    have same : items.map (fun item => (item.1, jsonAny item.2)) = items.map id :=
      List.map_congr_left fun item member =>
        congrArg (Prod.mk item.1) (ih item member (finite item member))
    rw [jsonAny_dict, same, List.map_id]
  | _ => rfl

theorem jsonAnyItems_finite {items : Dict Value} (finite : finiteItems items = true) :
    jsonAnyItems items = items := by
  have same : jsonAny (.dict items) = .dict items := jsonAny_finite finite
  rw [jsonAny] at same
  exact Value.dict.inj same

/-- Pydantic reads the text that it writes for a date in UTC as that date, which is in UTC. -/
def Wire.ReadsUtc (wire : Wire) : Prop :=
  ∀ iso utc, wire.astimezoneUtc iso = some utc →
    wire.pydantic.isoOfText utc = some utc ∧ wire.astimezoneUtc utc = some utc

/-- A message as Python holds it. A telemetry event has passed validation, and the numbers in its
    payload and its further fields are finite. -/
structure Message.Sound (wire : Wire) (m : Message) : Prop where
  held : Held wire.py m.modelDump
  validated : ∀ e, m = .telemetry e → ∃ c v, validateTelemetry wire c v = some e
  finite : ∀ e, m = .telemetry e → finiteItems e.payload = true ∧ finiteItems e.extra = true

section
variable {wire : Wire}

/-! A telemetry event is read from its dump. -/

theorem validated_cases {c : Coercions} {v : Value} {e : TelemetryEvent}
    (validated : validateTelemetry wire c v = some e) :
    (∃ iso, wire.astimezoneUtc iso = some e.tsUtc) ∧ ∀ item ∈ e.extra, item.1 ∉ telemetryFields := by
  cases v with
  | dict d =>
    simp only [validateTelemetry, field, Option.bind_eq_bind, Option.bind_eq_some_iff,
      Option.some.injEq] at validated
    obtain ⟨_, _, _, _, _, _, _, _, tsUtc, ⟨_, _, read⟩, _, _, _, _, _, _, _, _, rfl⟩ := validated
    constructor
    · rw [readTsUtc] at read
      obtain ⟨iso, _, utc⟩ := Option.bind_eq_some_iff.mp read
      exact ⟨iso, utc⟩
    · intro item member
      exact of_decide_eq_true (List.mem_filter.mp member).2
  | _ => cases validated

theorem field_of_get? {d : Dict Value} {key : String} {v : Value} (found : Dict.get? key d = some v)
    (read : Value → Option α) : field d key read = read v := by
  rw [field, found]
  rfl

theorem fieldD_of_get? {d : Dict Value} {key : String} {v : Value}
    (found : Dict.get? key d = some v) (read : Value → Option α) (default : α) :
    fieldD d key read default = read v := by
  rw [fieldD, found]

theorem readModality (m : Modality) :
    readLiteral Modality.all Modality.literal (.str m.literal) = some m := by
  cases m <;> decide

theorem readOptionalInt_self (c : Coercions) (n : Option Int) :
    nullable (readInt c) (jsonOption Value.int n) = some n := by
  cases n <;> rfl

theorem readTextDict_self (tags : Dict String) :
    readTextDict (.dict (tags.map fun item => (item.1, .str item.2))) = some tags := by
  rw [readTextDict, mapM_eq_some_iff, List.forall₂_map_left_iff, List.forall₂_same]
  intro item _
  rfl

/-- The keys of the further fields are none of the schema's. -/
theorem items_extra {e : TelemetryEvent} (apart : ∀ item ∈ e.extra, item.1 ∉ telemetryFields)
    (finite : finiteItems e.extra = true) :
    e.items.filter (fun item => decide (item.1 ∉ telemetryFields)) = e.extra := by
  rw [TelemetryEvent.items, jsonAnyItems_finite finite, List.filter_append]
  have own : List.filter (fun item : String × Value => decide (item.1 ∉ telemetryFields)) e.extra =
      e.extra := by
    rw [List.filter_eq_self]
    exact fun item member => decide_eq_true (apart item member)
  rw [own]
  simp [telemetryFields]

theorem validate_items (utc : wire.ReadsUtc) {e : TelemetryEvent}
    (validated : ∃ c v, validateTelemetry wire c v = some e)
    (finite : finiteItems e.payload = true ∧ finiteItems e.extra = true) :
    modelValidate wire (.dict e.items) = some e := by
  obtain ⟨c, v, validated⟩ := validated
  obtain ⟨⟨iso, aware⟩, apart⟩ := validated_cases validated
  obtain ⟨reads, stays⟩ := utc iso e.tsUtc aware
  have tsUtc : readTsUtc wire wire.pydantic.python (.str e.tsUtc) = some e.tsUtc := by
    simp only [readTsUtc, readDatetime, reads]
    exact stays
  have payload : jsonAny (.dict e.payload) = .dict e.payload := jsonAny_finite finite.1
  have found : Dict.get? "schema_version" e.items = some (.str e.schemaVersion) ∧
      Dict.get? "event_id" e.items = some (.str e.eventId) ∧
      Dict.get? "modality" e.items = some (.str e.modality.literal) ∧
      Dict.get? "source_id" e.items = some (.str e.sourceId) ∧
      Dict.get? "ts_utc" e.items = some (.str e.tsUtc) ∧
      Dict.get? "monotonic_ns" e.items = some (jsonOption Value.int e.monotonicNs) ∧
      Dict.get? "sequence" e.items = some (jsonOption Value.int e.sequence) ∧
      Dict.get? "payload" e.items = some (.dict e.payload) ∧
      Dict.get? "tags" e.items = some (.dict (e.tags.map fun item => (item.1, .str item.2))) := by
    simp [TelemetryEvent.items, payload]
  obtain ⟨schemaVersion, eventId, modality, sourceId, tsField, monotonicNs, sequence, payloadField,
    tags⟩ := found
  simp only [modelValidate, validateTelemetry, fieldD_of_get? schemaVersion, field_of_get? eventId,
    field_of_get? modality, field_of_get? sourceId, field_of_get? tsField,
    fieldD_of_get? monotonicNs, fieldD_of_get? sequence, fieldD_of_get? payloadField,
    fieldD_of_get? tags, tsUtc, readModality, readOptionalInt_self, readTextDict_self,
    items_extra apart finite.2, readText, readDict, Option.bind_eq_bind, Option.bind_some]

/-! The daemon's reader agrees with the strict one on every line that the strict one reads. -/

theorem schemaFor_telemetry {tag : Value} {s : Schema} (found : schemaFor tag = .ok (some s)) :
    tag.eqStr "telemetry" = decide (s = .telemetry) := by
  cases tag with
  | str text =>
    have hit := List.find?_some (Except.ok.inj found)
    have same : text = s.tag := by simpa [Value.eqStr] using hit
    subst same
    cases s <;> decide
  | list xs => cases found
  | dict items => cases found
  | _ =>
    have hit := List.find?_some (Except.ok.inj found)
    cases hit

def rowOf : Option TelemetryEvent → Row
  | some e => .telemetry e
  | none => .other

theorem readPayload_of_validated {v : Value} {row : Option TelemetryEvent}
    (read : validated wire v = .ok row) : ∃ e, row = some e ∧ readPayload wire v = .telemetry e := by
  unfold validated at read
  cases accepted : modelValidate wire v with
  | none => simp [accepted] at read
  | some e =>
    simp only [accepted, Except.ok.injEq] at read
    exact ⟨e, read.symm, by simp only [readPayload, accepted]⟩

theorem readRow_of_readLine {line : List Char} {row : Option TelemetryEvent}
    (read : readLine wire line = .ok row) : readRow wire line = rowOf row := by
  unfold readLine at read
  unfold readRow
  cases loaded : loads wire.py line with
  | error e => simp [loaded] at read
  | ok obj =>
    simp only [loaded] at read ⊢
    cases parts : envelope obj with
    | none =>
      simp only [parts] at read ⊢
      obtain ⟨e, rfl, same⟩ := readPayload_of_validated read
      exact same
    | some both =>
      obtain ⟨schema, data⟩ := both
      simp only [parts] at read ⊢
      cases found : schemaFor schema with
      | error e => simp [found] at read
      | ok known =>
        cases known with
        | none => simp [found] at read
        | some s =>
          rw [schemaFor_telemetry found]
          simp only [found] at read
          cases s with
          | telemetry =>
            obtain ⟨e, rfl, same⟩ := readPayload_of_validated read
            simpa [rowOf] using same
          | featureFrame => cases read; rfl
          | policyAction => cases read; rfl
          | audit => cases read; rfl

/-! One line. -/

theorem schemaFor_tag (s : Schema) : schemaFor (.str s.tag) = .ok (some s) := by
  cases s <;> rfl

theorem object_readable {m : Message} (held : Held wire.py m.modelDump)
    (digits : m.object.digitsOk = true) : Readable wire.py m.object := by
  have data : m.modelDump.digitsOk = true := by
    simpa [Message.object, Value.digitsOk, Value.digitsOkItems] using digits
  rw [Message.object, readable_dict]
  refine ⟨by simp, ?_⟩
  simp only [List.forall_mem_cons]
  exact ⟨trivial, held data, List.forall_mem_nil _⟩

theorem text_plain {m : Message} (readable : Readable wire.py m.object) {c : Char}
    (member : c ∈ print wire.py spaced m.object) : c ≠ '\n' ∧ c ≠ '\r' :=
  printable_not_newline (print_printable wire.py spaced_printable readable c member)

theorem loads_text {m : Message} (readable : Readable wire.py m.object) :
    loads wire.py (m.text wire.py) = .ok m.object := by
  unfold Message.text
  apply loads_print_space _ spaced_plain readable
  intro c member
  rw [List.mem_singleton.mp member]
  rfl

theorem text_solid (m : Message) : strip (m.text wire.py) ≠ [] := by
  have newline : ∀ c ∈ ['\n'], isStrSpace c = true := List.forall_mem_singleton.mpr rfl
  have stripped := strip_print_dict wire.py spaced
    [("schema", .str m.schema.tag), ("data", m.modelDump)] (List.forall_mem_nil _) newline
  rw [List.nil_append] at stripped
  rw [Message.text, Message.object, stripped]
  exact List.cons_ne_nil _ _

theorem readLine_text (utc : wire.ReadsUtc) {m : Message} (sound : m.Sound wire)
    (digits : m.object.digitsOk = true) :
    readLine wire (m.text wire.py) = .ok m.telemetry? := by
  have parts : envelope m.object = some (.str m.schema.tag, m.modelDump) := by
    simp [Message.object, envelope]
  unfold readLine
  rw [loads_text (object_readable sound.held digits)]
  simp only [parts, schemaFor_tag]
  cases m with
  | telemetry e =>
    have back := validate_items utc (sound.validated e rfl) (sound.finite e rfl)
    simp only [Message.schema, Message.modelDump, validated, back, Message.telemetry?]
  | featureFrame frame => rfl
  | policyAction action => rfl
  | audit record => rfl

/-! The whole file. -/

/-- No text in a message breaks its line: the lines of the file are those that were written. -/
theorem linesOf_texts {messages : List Message}
    (readable : ∀ m ∈ messages, Readable wire.py m.object) :
    linesOf (messages.flatMap (Message.text wire.py)) = messages.map (Message.text wire.py) := by
  have noReturn : '\r' ∉ messages.flatMap (Message.text wire.py) := by
    intro member
    obtain ⟨m, among, inside⟩ := List.mem_flatMap.mp member
    rcases List.mem_append.mp inside with printed | newline
    · exact (text_plain (readable m among) printed).2 rfl
    · simp at newline
  rw [linesOf, universalNewlines_id noReturn]
  clear noReturn
  induction messages with
  | nil => rfl
  | cons m messages ih =>
    have one : '\n' ∉ print wire.py spaced m.object := fun member =>
      (text_plain (readable m List.mem_cons_self) member).1 rfl
    have first : fileLines (m.text wire.py) = [m.text wire.py] := fileLines_line one
    have ends : m.text wire.py = [] ∨ ∃ body, m.text wire.py = body ++ ['\n'] :=
      Or.inr ⟨_, rfl⟩
    rw [List.flatMap_cons, fileLines_append ends, first,
      ih fun other later => readable other (List.mem_cons_of_mem _ later)]
    rfl

theorem solidLines_texts (messages : List Message) :
    Rapp.solidLines (messages.map (Message.text wire.py)) = messages.map (Message.text wire.py) := by
  unfold Rapp.solidLines
  rw [List.filter_eq_self, List.forall_mem_map]
  exact fun m _ => decide_eq_true (text_solid m)

theorem yields_reading {messages : List Message}
    (reads : ∀ m ∈ messages, readLine wire (m.text wire.py) = .ok m.telemetry?) :
    Yields (fileStream wire) (messages.filterMap Message.telemetry?)
      (.suspended (.reading (messages.map (Message.text wire.py)))) := by
  induction messages with
  | nil => exact ⟨.finished, rfl⟩
  | cons m messages ih =>
    have first := reads m List.mem_cons_self
    have rest := ih fun other later => reads other (List.mem_cons_of_mem _ later)
    cases found : m.telemetry? with
    | none =>
      rw [found] at first
      rw [List.filterMap_cons_none found]
      apply Yields.congr _ rest
      simp only [anext, fileStream, streamLines, List.map_cons, first]
    | some e =>
      rw [found] at first
      rw [List.filterMap_cons_some found]
      refine ⟨_, ?_, rest⟩
      simp only [anext, fileStream, streamLines, List.map_cons, first]

theorem yields_yielding (events : List TelemetryEvent) :
    Yields (tolerantFileEvents wire) events (.suspended (.yielding events)) := by
  induction events with
  | nil => exact ⟨.finished, rfl⟩
  | cons e events ih => exact ⟨_, rfl, ih⟩

/-- Without a resume id the daemon's reader starts at the first event. -/
theorem yields_unread (lines : List (List Char)) :
    Yields (tolerantFileEvents wire) (telemetryEvents wire lines)
      (.suspended (.unread (.ok lines) .null)) := by
  have same : anext (tolerantFileEvents wire) (.suspended (.unread (.ok lines) .null)) =
      anext (tolerantFileEvents wire) (.suspended (.yielding (telemetryEvents wire lines))) := rfl
  exact Yields.congr same (yields_yielding _)

theorem telemetryEvents_texts {messages : List Message}
    (reads : ∀ m ∈ messages, readLine wire (m.text wire.py) = .ok m.telemetry?) :
    telemetryEvents wire (messages.map (Message.text wire.py)) =
      messages.filterMap Message.telemetry? := by
  rw [telemetryEvents, solidLines_texts, List.filterMap_map]
  apply List.filterMap_congr
  intro m member
  rw [Function.comp_apply, readRow_of_readLine (reads m member)]
  cases m.telemetry? <;> rfl

theorem malformedLines_texts {messages : List Message}
    (reads : ∀ m ∈ messages, readLine wire (m.text wire.py) = .ok m.telemetry?) :
    malformedLines wire (messages.map (Message.text wire.py)) = 0 := by
  rw [malformedLines, solidLines_texts, List.countP_eq_zero, List.forall_mem_map]
  intro m member
  rw [readRow_of_readLine (reads m member)]
  cases m.telemetry? <;> simp [rowOf]

/-- However the writes interleave, once all have returned both readers give the telemetry events
    in the order in which `write` was called, and the daemon's counts no malformed line. -/
theorem fileConnector_roundTrip (utc : wire.ReadsUtc) {steps : List SinkStep} {sink : FileSink}
    (run : Machine.run (FileSink.step wire.py) (FileSink.connect none) steps = some sink)
    (complete : sink.writers = []) (sound : ∀ m ∈ sink.written, m.Sound wire) :
    sink.written = accepted true steps ∧
      Yields (fileStream wire) (sink.written.filterMap Message.telemetry?)
        (.suspended (.start true (.ok (linesOf sink.content)))) ∧
      Yields (fileSource wire).body (sink.written.filterMap Message.telemetry?)
        (.suspended (.unread (.ok (linesOf sink.content)) .null)) ∧
      (fileSource wire).skipped (.unread (.ok (linesOf sink.content)) .null) = 0 := by
  obtain ⟨calls, content, digits⟩ := content_of_run run complete
  have reads : ∀ m ∈ sink.written, readLine wire (m.text wire.py) = .ok m.telemetry? :=
    fun m member => readLine_text utc (sound m member) (digits m member)
  have lines : linesOf sink.content = sink.written.map (Message.text wire.py) := by
    rw [content]
    exact linesOf_texts fun m member => object_readable (sound m member).held (digits m member)
  rw [lines]
  refine ⟨calls, ?_, ?_, malformedLines_texts reads⟩
  · apply Yields.congr _ (yields_reading reads)
    simp only [anext, fileStream, solidLines_texts]
  · rw [← telemetryEvents_texts reads]
    exact yields_unread _

end

/-! Two writes at once, of an event whose texts and keys look like the file's own, and of a
frame that waits for it. -/

def escapedEvent : TelemetryEvent :=
  { sampleEvent with
    payload := [("schema", .str "a\nb\u2028c")], extra := [("data", .list [.null])] }

def sampleFrame : FeatureFrame where
  frameId := "f-1"
  windowStartUtc := "2026-01-01T00:00:00Z"
  windowEndUtc := "2026-01-01T00:00:30Z"
  modalitiesPresent := [.synthetic]
  nEvents := 1

theorem escapedEvent_validated :
    validateTelemetry sampleWire sampleWire.pydantic.python (.dict (sampleFields ++
      [("payload", .dict escapedEvent.payload), ("data", .list [.null])])) = some escapedEvent := rfl

theorem escapedEvent_readable : Readable sampleWire.py (.dict escapedEvent.items) := by
  rw [readable_dict]
  simp [TelemetryEvent.items, escapedEvent, sampleEvent, jsonAny, jsonAnyItems, jsonAnyList,
    jsonOption, Readable, ReadableItems, ReadableList]

theorem sampleFrame_readable : Readable sampleWire.py (.dict sampleFrame.items) := by
  have short : intDigitsOk 1 = true := intDigitsOk_of_small (by decide)
  rw [readable_dict]
  simp [FeatureFrame.items, sampleFrame, jsonAny, jsonAnyItems, Readable, ReadableItems,
    ReadableList, short]

theorem escapedEvent_sound : (Message.telemetry escapedEvent).Sound sampleWire where
  held _ := escapedEvent_readable
  validated := by
    rintro e ⟨⟩
    exact ⟨_, _, escapedEvent_validated⟩
  finite := by
    rintro e ⟨⟩
    exact ⟨rfl, rfl⟩

theorem sampleFrame_sound : (Message.featureFrame sampleFrame).Sound sampleWire where
  held _ := sampleFrame_readable
  validated := nofun
  finite := nofun

theorem line_of_readable {wire : Wire} {m : Message}
    (readable : Readable wire.py m.modelDump) :
    m.line wire.py = .ok (m.text wire.py) := by
  have digits := readable_digitsOk wire.py readable
  apply line_eq_ok.mpr ⟨_, rfl⟩
  simp [Message.object, Value.digitsOk, Value.digitsOkItems, digits]

/-- The event's line goes into the file in two parts, and the frame waits for it. -/
theorem fileConnector_roundTrip_two :
    ∃ sink : FileSink, sink.written = [.telemetry escapedEvent, .featureFrame sampleFrame] ∧
      Yields (fileStream sampleWire) [escapedEvent]
        (.suspended (.start true (.ok (linesOf sink.content)))) ∧
      Yields (fileSource sampleWire).body [escapedEvent]
        (.suspended (.unread (.ok (linesOf sink.content)) .null)) := by
  have event : (Message.telemetry escapedEvent).line sampleWire.py =
      .ok ((Message.telemetry escapedEvent).text sampleWire.py) :=
    line_of_readable escapedEvent_readable
  have frame : (Message.featureFrame sampleFrame).line sampleWire.py =
      .ok ((Message.featureFrame sampleFrame).text sampleWire.py) :=
    line_of_readable sampleFrame_readable
  generalize (Message.telemetry escapedEvent).text sampleWire.py = first at event
  generalize (Message.featureFrame sampleFrame).text sampleWire.py = second at frame
  have run : Machine.run (FileSink.step sampleWire.py) (FileSink.connect none)
      [.call (.telemetry escapedEvent), .append 7, .call (.featureFrame sampleFrame),
        .append first.length, .returns, .append second.length, .close, .returns] =
      some ⟨false, first.take 7 ++ first.drop 7 ++ second, [],
        [.telemetry escapedEvent, .featureFrame sampleFrame]⟩ := by
    have whole : (first.drop 7).take first.length = first.drop 7 :=
      List.take_of_length_le (by simp)
    have nothing : (first.drop 7).drop first.length = [] :=
      List.drop_eq_nil_of_le (by simp)
    simp [Machine.run, FileSink.step, FileSink.write, FileSink.connect, event, frame, ok_bind,
      whole, nothing]
  have sound : ∀ m ∈ [Message.telemetry escapedEvent, .featureFrame sampleFrame],
      m.Sound sampleWire := by
    simp only [List.forall_mem_cons]
    exact ⟨escapedEvent_sound, sampleFrame_sound, List.forall_mem_nil _⟩
  have utc : sampleWire.ReadsUtc := fun _ _ _ => ⟨rfl, rfl⟩
  obtain ⟨_, strict, tolerant, _⟩ := fileConnector_roundTrip utc run rfl sound
  exact ⟨_, rfl, strict, tolerant⟩

end HorizonRic.Io
