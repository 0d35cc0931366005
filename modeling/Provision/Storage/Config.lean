import Provision.Json.Decode
import Provision.Storage.Error

/-!
# Storage configuration

The name of a driver and a free set of attributes that only the driver understands.
-/

namespace Provision.Storage

structure Config where
  driver : Option String
  attributes : Dict Json.Value
deriving Inhabited

namespace Config

def defaultDriver : String := "s3"

def driverName (c : Config) : String := c.driver.getD defaultDriver

/-- A text attribute; the empty text counts as unset. -/
def string? (c : Config) (key : String) : Option String :=
  match c.attributes.get? key with
  | some (.string s) => if s.isEmpty then none else some s
  | _ => none

def requireString (c : Config) (key : String) : Except Error String :=
  match c.string? key with
  | some s => .ok s
  | none =>
    .error (.configuration
      ("Missing required attribute for " ++ c.driverName ++ " driver: " ++ key))

def bool? (c : Config) (key : String) : Option Bool :=
  match c.attributes.get? key with
  | some (.bool b) => some b
  | some (.string "true") => some true
  | some (.string "false") => some false
  | _ => none

def boolOr (c : Config) (key : String) (default : Bool) : Bool := (c.bool? key).getD default

def toJson (c : Config) : Json.Value :=
  .ofDict (c.attributes.insert "driver"
    (match c.driver with
     | some name => .string name
     | none => .null))

structure Draft where
  driver : Option (Option String) := none
  attributes : Dict Json.Value := {}

def readMember (room : Nat) (d : Draft) (key : String) (doc : Json.Document) :
    Json.Result Draft := do
  if key = "driver" then
    if d.driver.isSome then throw (.duplicateField key)
    return { d with driver := some (← Json.Decoder.string.optional room doc) }
  else
    return { d with attributes := d.attributes.insert key (← doc.toValue room) }

def decoder : Json.Decoder Config := fun room doc =>
  match doc with
  | .object members closed =>
    Json.Decoder.enter room fun room => do
      let d ← Json.Document.foldMembers (readMember room) {} members closed
      return ⟨d.driver.getD none, d.attributes⟩
  | doc => Json.Decoder.mismatch "struct StorageConfig" doc

end Config

end Provision.Storage
