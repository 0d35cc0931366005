import Provision.Version

/-!
# Outputs and results

What an engine reports of an environment: named values, some of them sensitive. The raw view
keeps every value; the sanitized view shows text, and a fixed marker for a sensitive value.
-/

namespace Provision

structure OutputRecord where
  value : Json.Value
  sensitive : Bool
deriving Inhabited

def sensitiveMarker : String := "<sensitive>"

namespace OutputRecord

def toJson (r : OutputRecord) : Json.Value :=
  .object [("value", r.value), ("sensitive", .bool r.sensitive)]

def display (r : OutputRecord) : String :=
  if r.sensitive then sensitiveMarker else r.value.display

structure Draft where
  value : Option Json.Value := none
  sensitive : Option Bool := none

def record : Json.Record Draft where
  name := "OutputRecord"
  start := {}
  fields := [
    { name := "value"
      required := false
      isSet := fun d => d.value.isSome
      read := fun d room doc => do
        return { d with value := some (← Json.Decoder.value room doc) } },
    { name := "sensitive"
      required := false
      isSet := fun d => d.sensitive.isSome
      read := fun d room doc => do
        return { d with sensitive := some (← Json.Decoder.bool room doc) } }]

def decoder : Json.Decoder OutputRecord := fun room doc => do
  let d ← record.decoder room doc
  return ⟨d.value.getD .null, d.sensitive.getD false⟩

end OutputRecord

abbrev Outputs : Type := Dict OutputRecord

namespace Outputs

def decoder : Json.Decoder Outputs := OutputRecord.decoder.dict

def toJson (o : Outputs) : Json.Value := .ofDict (o.map OutputRecord.toJson)

end Outputs

/-- What an apply, a destroy or a read tells. -/
structure RunResult where
  version : Version
  output : Outputs

namespace RunResult

def withoutOutput (v : Version) : RunResult := ⟨v, {}⟩

def rawOutput (r : RunResult) : Dict Json.Value := r.output.map (·.value)

def sanitizedOutput (r : RunResult) : Dict String := r.output.map (·.display)

end RunResult

end Provision
