import Provision.Json.Decode

/-!
# Versions of stored objects

A store assigns a token at every write. Tokens are compared for equality only; the empty
token is the version of an object that does not exist.
-/

namespace Provision.Storage

structure ObjectVersion where
  token : String
  lastModified : Option Timestamp
deriving DecidableEq, Inhabited

namespace ObjectVersion

/-- The version of an object that does not exist. -/
def zero : ObjectVersion := ⟨"", none⟩

def isZero (v : ObjectVersion) : Bool := v.token.isEmpty

def same (v w : ObjectVersion) : Bool := v.token = w.token

def display (v : ObjectVersion) : String :=
  if v.isZero then "<none>" else v.token

def toJson (v : ObjectVersion) : Json.Value :=
  .object (("token", .string v.token) ::
    (v.lastModified.map fun t => ("last_modified", Json.Value.string t.text)).toList)

structure Draft where
  token : Option String := none
  lastModified : Option (Option Timestamp) := none

def record : Json.Record Draft where
  name := "StorageVersion"
  start := {}
  fields := [
    { name := "token"
      required := true
      isSet := fun d => d.token.isSome
      read := fun d room doc => do return { d with token := some (← Json.Decoder.string room doc) } },
    { name := "last_modified"
      required := false
      isSet := fun d => d.lastModified.isSome
      read := fun d room doc => do
        return { d with lastModified := some (← Json.Decoder.timestamp.optional room doc) } }]

def decoder : Json.Decoder ObjectVersion := fun room doc => do
  let d ← record.decoder room doc
  return ⟨d.token.getD "", d.lastModified.getD none⟩

end ObjectVersion

end Provision.Storage
