import Provision.Lifecycle.Error
import Provision.Storage.ObjectVersion

/-!
# Versions of an environment

A version identifies one persisted state of one environment: by the serial of a workspace's
state, or by the token of a stored object. Versions are written as objects whose values are
all strings. Only serials of one environment are ordered; tokens are equal or unrelated.
-/

namespace Provision

inductive Mode where
  | workspace
  | legacy
deriving DecidableEq

def Mode.text : Mode → String
  | workspace => "workspace"
  | legacy => "legacy"

structure Version where
  envName : String
  serial : Option Nat
  storageVersion : Option String
  lastModified : Option Timestamp
  planOnly : Bool
deriving DecidableEq, Inhabited

namespace Version

/-- The version of an environment without state. -/
def empty (envName : String) : Version := ⟨envName, none, none, none, false⟩

def plan (envName : String) : Version := { empty envName with planOnly := true }

def ofSerial (envName : String) (serial : Nat) : Version :=
  { empty envName with serial := some serial }

def ofStorage (envName : String) (v : Storage.ObjectVersion) : Version :=
  if v.isZero then empty envName
  else { empty envName with storageVersion := some v.token, lastModified := v.lastModified }

def isZero (v : Version) : Bool := v.serial.isNone && v.storageVersion.isNone

def mode (v : Version) : Option Mode :=
  if v.serial.isSome then some .workspace
  else if v.storageVersion.isSome then some .legacy
  else none

def validate (v : Version) : Except Lifecycle.Error Unit :=
  if Text.isAllBlank v.envName then
    .error (.validation "version is missing `env_name`")
  else if v.serial.isSome && v.storageVersion.isSome then
    .error (.validation "version must not set both `serial` and `storage_version`")
  else .ok ()

def display (v : Version) : String :=
  match v.serial, v.storageVersion with
  | some serial, _ => v.envName ++ " (serial " ++ toString serial ++ ")"
  | none, some token => v.envName ++ " (version " ++ token ++ ")"
  | none, none => v.envName ++ " (no state)"

/-- Do both identify the same state? Times and plan flags do not matter. -/
def same (v w : Version) : Bool :=
  v.envName = w.envName && v.serial = w.serial && v.storageVersion = w.storageVersion

def compare? (v w : Version) : Option Ordering :=
  if v.same w then some .eq
  else if v.envName ≠ w.envName then none
  else
    match v.serial, w.serial with
    | some a, some b => some (compare a b)
    | _, _ => none

def isLess (v w : Version) : Bool := v.compare? w = some .lt

def isAtLeast (v w : Version) : Bool :=
  v.compare? w = some .gt || v.compare? w = some .eq

def member (name : String) (value : Option String) : List (String × Json.Value) :=
  (value.map fun s => (name, Json.Value.string s)).toList

def toJson (v : Version) : Json.Value :=
  .object (("env_name", .string v.envName) ::
    (member "serial" (v.serial.map toString) ++
     member "storage_version" v.storageVersion ++
     member "last_modified" (v.lastModified.map (·.text)) ++
     member "plan_only" (if v.planOnly then some "true" else none)))

inductive Scalar where
  | number (n : Nat)
  | bool (b : Bool)
  | text (s : String)

def scalarDecoder : Json.Decoder Scalar := fun room doc => do
  match ← doc.toValue room with
  | .number (.natural n) => return .number n
  | .bool b => return .bool b
  | .string s => return .text s
  | _ => throw .noScalar

def wordOfText? (s : String) : Option Nat :=
  let ds :=
    match s.toList with
    | '+' :: rest => rest
    | cs => cs
  if !ds.isEmpty && ds.all Timestamp.isDigit then
    let n := Json.digitsValue ds
    if n < Json.Number.wordLimit then some n else none
  else none

/-- A serial may be a number or its text; the empty text is none. -/
def serialDecoder : Json.Decoder (Option Nat) := fun room doc => do
  match ← scalarDecoder.optional room doc with
  | none => return none
  | some (.number n) => return some n
  | some (.bool b) => throw (.notSerial (if b then "true" else "false"))
  | some (.text s) =>
    if s.isEmpty then return none
    match wordOfText? s with
    | some n => return some n
    | none => throw (.notSerial s)

def flagDecoder : Json.Decoder Bool := fun room doc => do
  match ← scalarDecoder.optional room doc with
  | none => return false
  | some (.bool b) => return b
  | some (.text s) => return s = "true"
  | some (.number n) => return n ≠ 0

def nonEmptyDecoder : Json.Decoder (Option String) := fun room doc => do
  match ← Json.Decoder.string.optional room doc with
  | some s => return if s.isEmpty then none else some s
  | none => return none

structure Draft where
  envName : Option String := none
  serial : Option (Option Nat) := none
  storageVersion : Option (Option String) := none
  lastModified : Option (Option Timestamp) := none
  planOnly : Option Bool := none

def record : Json.Record Draft where
  name := "Version"
  start := {}
  fields := [
    { name := "env_name"
      required := true
      isSet := fun d => d.envName.isSome
      read := fun d room doc => do
        return { d with envName := some (← Json.Decoder.string room doc) } },
    { name := "serial"
      required := false
      isSet := fun d => d.serial.isSome
      read := fun d room doc => do
        return { d with serial := some (← serialDecoder room doc) } },
    { name := "storage_version"
      required := false
      isSet := fun d => d.storageVersion.isSome
      read := fun d room doc => do
        return { d with storageVersion := some (← nonEmptyDecoder room doc) } },
    { name := "last_modified"
      required := false
      isSet := fun d => d.lastModified.isSome
      read := fun d room doc => do
        return { d with lastModified := some (← Json.Decoder.timestamp.optional room doc) } },
    { name := "plan_only"
      required := false
      isSet := fun d => d.planOnly.isSome
      read := fun d room doc => do
        return { d with planOnly := some (← flagDecoder room doc) } }]

def Draft.finish (d : Draft) : Version :=
  ⟨d.envName.getD "", d.serial.getD none, d.storageVersion.getD none,
    d.lastModified.getD none, d.planOnly.getD false⟩

def decoder : Json.Decoder Version := fun room doc => do
  return (← record.decoder room doc).finish

end Version

end Provision
