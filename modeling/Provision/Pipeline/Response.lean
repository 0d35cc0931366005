import Provision.Output

/-!
# Responses

A response carries a version and, next to it, named texts for people: the sanitized outputs in
ascending order of their names, and the version of the engine last.
-/

namespace Provision

structure MetadataField where
  name : String
  value : String
deriving DecidableEq

namespace MetadataField

def toJson (f : MetadataField) : Json.Value :=
  .object [("name", .string f.name), ("value", .string f.value)]

structure Draft where
  name : Option String := none
  value : Option String := none

def record : Json.Record Draft where
  name := "MetadataField"
  start := {}
  fields := [
    { name := "name"
      required := true
      isSet := fun d => d.name.isSome
      read := fun d room doc => do return { d with name := some (← Json.Decoder.string room doc) } },
    { name := "value"
      required := true
      isSet := fun d => d.value.isSome
      read := fun d room doc => do return { d with value := some (← Json.Decoder.string room doc) } }]

def decoder : Json.Decoder MetadataField := fun room doc => do
  let d ← record.decoder room doc
  return ⟨d.name.getD "", d.value.getD ""⟩

end MetadataField

structure Response where
  version : Version
  metadata : List MetadataField
deriving DecidableEq

namespace Response

def bare (v : Version) : Response := ⟨v, []⟩

def ofResult (r : RunResult) (engineVersion : Option String) : Response where
  version := r.version
  metadata :=
    r.sanitizedOutput.entries.map (fun e => ⟨e.1, e.2⟩) ++
      (engineVersion.map fun text => ⟨"terraform_version", text⟩).toList

def toJson (r : Response) : Json.Value :=
  .object (("version", r.version.toJson) ::
    (if r.metadata.isEmpty then []
     else [("metadata", Json.Value.array (r.metadata.map MetadataField.toJson))]))

structure Draft where
  version : Option Version := none
  metadata : Option (List MetadataField) := none

def record : Json.Record Draft where
  name := "Response"
  start := {}
  fields := [
    { name := "version"
      required := true
      isSet := fun d => d.version.isSome
      read := fun d room doc => do
        return { d with version := some (← Version.decoder room doc) } },
    { name := "metadata"
      required := false
      isSet := fun d => d.metadata.isSome
      read := fun d room doc => do
        return { d with metadata := some (← MetadataField.decoder.list room doc) } }]

def decoder : Json.Decoder Response := fun room doc => do
  let d ← record.decoder room doc
  return ⟨d.version.getD default, d.metadata.getD []⟩

end Response

end Provision
