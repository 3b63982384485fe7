import HorizonRic.Evidence.Append

/-!
`TelemetryEvent` of `io/schemas.py`: its fields, `model_validate` and
`model_validate_json`. A timestamp is the ISO text that pydantic writes for it.
Unknown keys are kept.
-/
namespace HorizonRic.Io

open Py Json Evidence

inductive Modality where
  | kpm5g
  | kpmNtn
  | spectrumIq
  | spectrumPsd
  | tle
  | ephemerisOem
  | weatherGrib
  | thermal
  | spectrumLbt
  | ueQos
  | isacRadar
  | userEvent
  | synthetic
  deriving DecidableEq

def Modality.literal : Modality → String
  | .kpm5g => "kpm_5g"
  | .kpmNtn => "kpm_ntn"
  | .spectrumIq => "spectrum_iq"
  | .spectrumPsd => "spectrum_psd"
  | .tle => "tle"
  | .ephemerisOem => "ephemeris_oem"
  | .weatherGrib => "weather_grib"
  | .thermal => "thermal"
  | .spectrumLbt => "spectrum_lbt"
  | .ueQos => "ue_qos"
  | .isacRadar => "isac_radar"
  | .userEvent => "user_event"
  | .synthetic => "synthetic"

def Modality.all : List Modality :=
  [.kpm5g, .kpmNtn, .spectrumIq, .spectrumPsd, .tle, .ephemerisOem, .weatherGrib, .thermal,
    .spectrumLbt, .ueQos, .isacRadar, .userEvent, .synthetic]

/-- What reading telemetry is built on: pydantic with its JSON scanner on bytes, and
    `astimezone(timezone.utc)` on the ISO text of a date, none for a naive one. -/
structure Wire where
  py : Interpreter
  pydantic : Pydantic
  scanBytes : Bytes → Option Value
  astimezoneUtc : String → Option String

def schemaVersionDefault : String := "0.1.0"

structure TelemetryEvent where
  schemaVersion : String := schemaVersionDefault
  eventId : String
  modality : Modality
  sourceId : String
  tsUtc : String
  monotonicNs : Option Int := none
  sequence : Option Int := none
  payload : Dict Value := []
  tags : Dict String := []
  extra : Dict Value := []

def telemetryFields : List String :=
  ["schema_version", "event_id", "modality", "source_id", "ts_utc", "monotonic_ns", "sequence",
    "payload", "tags"]

/-- `dict[str, str]`. -/
def readTextDict : Value → Option (Dict String)
  | .dict items => items.mapM fun item => (readText item.2).map fun s => (item.1, s)
  | _ => none

section
variable (wire : Wire) (c : Coercions)

/-- `ts_utc`, with `_ts_must_be_aware`. -/
def readTsUtc (v : Value) : Option String := do
  let iso ← readDatetime wire.pydantic c v
  wire.astimezoneUtc iso

/-- Validation of a Python or a JSON value; none is a `ValidationError`. -/
def validateTelemetry : Value → Option TelemetryEvent
  | .dict d => do
    let schemaVersion ← fieldD d "schema_version" readText schemaVersionDefault
    let eventId ← field d "event_id" readText
    let modality ← field d "modality" (readLiteral Modality.all Modality.literal)
    let sourceId ← field d "source_id" readText
    let tsUtc ← field d "ts_utc" (readTsUtc wire c)
    let monotonicNs ← fieldD d "monotonic_ns" (nullable (readInt c)) none
    let sequence ← fieldD d "sequence" (nullable (readInt c)) none
    let payload ← fieldD d "payload" readDict []
    let tags ← fieldD d "tags" readTextDict []
    some ⟨schemaVersion, eventId, modality, sourceId, tsUtc, monotonicNs, sequence, payload, tags,
      d.filter fun item => decide (item.1 ∉ telemetryFields)⟩
  | _ => none

end

/-- `TelemetryEvent.model_validate`. -/
def modelValidate (wire : Wire) (v : Value) : Option TelemetryEvent :=
  validateTelemetry wire wire.pydantic.python v

/-- `TelemetryEvent.model_validate_json` on the value of a message; a tombstone has none. -/
def modelValidateJson (wire : Wire) (value : Option Bytes) : Option TelemetryEvent := do
  let bytes ← value
  let v ← wire.scanBytes bytes
  validateTelemetry wire wire.pydantic.json v

/-! `model_dump_json`. -/

def TelemetryEvent.items (e : TelemetryEvent) : Dict Value :=
  [("schema_version", .str e.schemaVersion), ("event_id", .str e.eventId),
    ("modality", .str e.modality.literal), ("source_id", .str e.sourceId),
    ("ts_utc", .str e.tsUtc), ("monotonic_ns", jsonOption Value.int e.monotonicNs),
    ("sequence", jsonOption Value.int e.sequence), ("payload", jsonAny (.dict e.payload)),
    ("tags", .dict (e.tags.map fun item => (item.1, .str item.2)))] ++ jsonAnyItems e.extra

/-- `json.loads(event.model_dump_json())`, where every integer can be read. -/
def TelemetryEvent.modelDump (e : TelemetryEvent) : Value := .dict e.items

/-! One event, as a producer sends it. -/

def sampleFields : Dict Value :=
  [("event_id", .str "e-1"), ("modality", .str "synthetic"), ("source_id", .str "s"),
    ("ts_utc", .str "2026-01-01T00:00:00Z")]

def sampleMessage : Bytes :=
  utf8 ("\x7b\"event_id\":\"e-1\",\"modality\":\"synthetic\",\"source_id\":\"s\"," ++
    "\"ts_utc\":\"2026-01-01T00:00:00Z\"\x7d")

def sampleEvent : TelemetryEvent where
  eventId := "e-1"
  modality := .synthetic
  sourceId := "s"
  tsUtc := "2026-01-01T00:00:00Z"

def sampleWire : Wire where
  py := sampleInterpreter
  pydantic := samplePydantic
  scanBytes bytes := if bytes = sampleMessage then some (.dict sampleFields) else none
  astimezoneUtc := some

theorem sampleMessage_scanned : sampleWire.scanBytes sampleMessage = some (.dict sampleFields) := by
  simp only [sampleWire, if_true]

theorem sampleFields_validate (c : Coercions) :
    validateTelemetry sampleWire c (.dict sampleFields) = some sampleEvent := rfl

end HorizonRic.Io
