import Provision.Json.Decode
import Provision.Lifecycle.Error

/-!
# The serial of a state document

An engine counts the writes of a state in the document's top-level `serial`. Only an integer
that is a 64-bit word is a serial.
-/

namespace Provision.Lifecycle

def serialMember : Json.Value → Option Json.Value
  | .object members => (members.find? (·.1 = "serial")).map (·.2)
  | _ => none

def unreadable (raw : Bytes) : Error :=
  .malformedState
    ("Failed to unmarshal JSON output.\nError: <json error>\nOutput: " ++ Text.Utf8.lossy raw)

def parseSerial (raw : Bytes) : Except Error Nat :=
  match Json.decodeBytes Json.Decoder.value raw with
  | .error _ => .error (unreadable raw)
  | .ok document =>
    match serialMember document with
    | none => .error (.malformedState "State has no 'serial' field")
    | some (.number (.natural n)) => .ok n
    | some v =>
      .error (.malformedState ("Expected number value for 'serial' but got '" ++ v.compact ++ "'"))

end Provision.Lifecycle
