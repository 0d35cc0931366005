import Provision.Host.Path
import Provision.Storage.Config
import Provision.Storage.Driver

/-!
# Objects in a local directory

An object is a file below the root. Next to it a version file holds the token and the time of
its last upload. An upload writes the object first; a download and a deletion take the version
file first, so an object without a version file does not exist.
-/

namespace Provision.Storage.LocalDirectory

open Provision.Host

/-- Keys are relative paths made of ordinary names. -/
def isValidKey (key : String) : Bool :=
  !key.isEmpty && (Path.components key).all fun c =>
    match c with
    | .name _ => true
    | _ => false

def objectPath (root key : String) : Except Error String :=
  if isValidKey key then .ok (Path.join root key)
  else .error (.configuration ("Invalid storage key: '" ++ key ++ "'"))

def versionPath (objectPath : String) : String := objectPath ++ ".version"

structure VersionRecord where
  version : String
  lastModified : Timestamp

namespace VersionRecord

def toJson (r : VersionRecord) : Json.Value :=
  .object [("version", .string r.version), ("last_modified", .string r.lastModified.text)]

def encode (r : VersionRecord) : Bytes := Text.Utf8.encode r.toJson.pretty

structure Draft where
  version : Option String := none
  lastModified : Option Timestamp := none

def record : Json.Record Draft where
  name := "VersionRecord"
  start := {}
  fields := [
    { name := "version"
      required := true
      isSet := fun d => d.version.isSome
      read := fun d room doc => do return { d with version := some (← Json.Decoder.string room doc) } },
    { name := "last_modified"
      required := true
      isSet := fun d => d.lastModified.isSome
      read := fun d room doc => do
        return { d with lastModified := some (← Json.Decoder.timestamp room doc) } }]

def decode? (bytes : Bytes) : Option VersionRecord :=
  match Json.decodeBytes record.decoder bytes with
  | .ok ⟨some version, some lastModified⟩ => some ⟨version, lastModified⟩
  | _ => none

end VersionRecord

def readVersion (key path : String) : Work ObjectVersion := do
  match ← Task.lift (readFile (versionPath path)) with
  | .error .notFound => return .zero
  | .error fault => throw (.read key fault.message)
  | .ok bytes =>
    match VersionRecord.decode? bytes with
    | none => throw (.read key "corrupt version record: <json error>")
    | some r => return ⟨r.version, some r.lastModified⟩

def upload (root key : String) (content : Bytes) : Work ObjectVersion := do
  let path ← ExceptT.mk (pure (objectPath root key))
  if let some directory := Path.parent? path then
    attempt (makeDirectories directory) fun fault => .write key fault.message
  attempt (writeFile path content) fun fault => .write key fault.message
  let token ← Task.lift freshUuid
  let time ← Task.lift now
  let r : VersionRecord := ⟨token.text, time⟩
  attempt (writeFile (versionPath path) r.encode) fun fault => .write key fault.message
  return ⟨r.version, some time⟩

def download (root key : String) : Work (Bytes × ObjectVersion) := do
  let path ← ExceptT.mk (pure (objectPath root key))
  let version ← readVersion key path
  if version.isZero then throw (.notFound key)
  match ← Task.lift (readFile path) with
  | .ok content => return (content, version)
  | .error .notFound => throw (.notFound key)
  | .error fault => throw (.read key fault.message)

def version (root key : String) : Work ObjectVersion := do
  let path ← ExceptT.mk (pure (objectPath root key))
  if ← Task.lift (pathExists path) then readVersion key path else return .zero

def removeIfPresent (key path : String) : Work Unit := do
  match ← Task.lift (removeFile path) with
  | .ok () => return ()
  | .error .notFound => return ()
  | .error fault => throw (.write key fault.message)

def delete (root key : String) : Work Unit := do
  let path ← ExceptT.mk (pure (objectPath root key))
  removeIfPresent key (versionPath path)
  removeIfPresent key path

def driver (root : String) : Driver where
  name := "local"
  answer
    | .upload key content => (upload root key content).run
    | .download key => (download root key).run
    | .version key => (version root key).run
    | .delete key => (delete root key).run

def rootOf (c : Config) : Except Error String := c.requireString "path"

end Provision.Storage.LocalDirectory
