import Provision.Host.Path
import Provision.Lifecycle.Step
import Provision.Text.Quoted

/-!
# The local copy of a stored state

An environment's state is stored under the key `<name>.tfstate`. A run works on a local copy:
it downloads the stored object before, and uploads the copy after, the engine has used it.
-/

namespace Provision.Lifecycle

structure StateFile where
  localPath : String
  key : String
deriving DecidableEq

namespace StateFile

open Provision.Host (Fault)

def localName : String := "terraform.tfstate"

def stateKey (envName : String) : String := envName ++ ".tfstate"

def ofEnv (envName directory : String) : StateFile :=
  ⟨Host.Path.join directory localName, stateKey envName⟩

def describe (f : StateFile) (driverName : String) : String :=
  "StateFile \x7b local_path: " ++ Text.quotePath f.localPath ++
    ", remote_path: " ++ Text.quote f.key ++ ", driver: " ++ Text.quote driverName ++ " \x7d"

def existsLocally (f : StateFile) : Run Bool := host (.isFile f.localPath)

def remoteVersion (f : StateFile) : StorageTask Storage.ObjectVersion :=
  Task.ofProgram (Program.perform (S := steps) (.storage (.version f.key)))

def attempt {α : Type} (p : Run (Except Fault α)) (report : Fault → String) : StorageTask α :=
  (Task.ofProgram p).mapError fun fault => .io (report fault)

def writeLocal (f : StateFile) (content : Bytes) : StorageTask Unit := do
  if let some directory := Host.Path.parent? f.localPath then
    attempt (host (.makeDirectories directory)) fun fault => fault.message
  attempt (host (.writeFile f.localPath content)) fun fault =>
    "Failed to write state file to '" ++ f.localPath ++ "': " ++ fault.message

def readLocal (f : StateFile) : StorageTask Bytes :=
  attempt (host (.readFile f.localPath)) fun fault =>
    "Failed to read state file '" ++ f.localPath ++ "': " ++ fault.message

/-- Brings the stored object here. An absent one leaves the local copy alone and has the zero
version. -/
def download (f : StateFile) : StorageTask Storage.ObjectVersion := do
  let probed ← f.remoteVersion
  if probed.isZero then
    Task.lift (log .debug ("No remote state at '" ++ f.key ++ "'"))
    return probed
  let (content, version) ←
    Task.ofProgram (Program.perform (S := steps) (.storage (.download f.key)))
  f.writeLocal content
  Task.lift (log .info
    ("Downloaded state '" ++ f.key ++ "' (version " ++ version.display ++ ")"))
  return version

def upload (f : StateFile) : StorageTask Storage.ObjectVersion := do
  let content ← f.readLocal
  let version ←
    Task.ofProgram (Program.perform (S := steps) (.storage (.upload f.key content)))
  Task.lift (log .info
    ("Uploaded state '" ++ f.key ++ "' (version " ++ version.display ++ ")"))
  return version

def delete (f : StateFile) : StorageTask Unit := do
  Task.ofProgram (Program.perform (S := steps) (.storage (.delete f.key)))
  Task.lift (log .info ("Deleted state '" ++ f.key ++ "'"))

end StateFile

end Provision.Lifecycle
