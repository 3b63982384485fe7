import HorizonRic.Io.Schemas
import HorizonRic.Python.AsyncGenerator

/-!
`KafkaSource.stream` of `io/connectors/kafka_connector.py`, over the values of the
messages that the consumer delivers. After the last of them it waits.
-/
namespace HorizonRic.Io

open Py

/-- Where the body of `stream` stands: at its start, or in its loop. -/
inductive KafkaStream where
  | start (started : Bool) (values : List (Option Bytes))
  | consuming (values : List (Option Bytes))

section
variable (wire : Wire)

/-- One message: a value that does not parse is raised as a `ConnectorIOError`. -/
def consume : List (Option Bytes) → Option (Resumed KafkaStream TelemetryEvent)
  | [] => none
  | value :: values =>
    match modelValidateJson wire value with
    | some event => some (.yields event (.consuming values))
    | none => some (.raises (.other "ConnectorIOError"))

def stream : KafkaStream → Option (Resumed KafkaStream TelemetryEvent)
  | .start started values =>
    if started then consume wire values else some (.raises (.other "ConnectorIOError"))
  | .consuming values => consume wire values

end
end HorizonRic.Io
