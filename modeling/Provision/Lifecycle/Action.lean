import Provision.Lifecycle.Serial
import Provision.Lifecycle.StateFile
import Provision.Version

/-!
# Applying, destroying and reading an environment

An action drives the engine for one environment. The state is kept either in a workspace of
the engine's backend or in a stored object with a local copy; that choice is the only
difference between the two kinds of runs.

An apply prepares the state, lets the engine apply, and reads the result back. A failed apply
is made up for by one destroy, if that is wanted; nothing is ever tried again. A stored state
is uploaded also after a failure, so that what was created is not forgotten.
-/

namespace Provision.Lifecycle

inductive Backend where
  | workspace
  | stored (file : StateFile)
deriving DecidableEq

def Backend.mode : Backend → Mode
  | workspace => .workspace
  | stored _ => .legacy

structure Action where
  backend : Backend
  envName : String
  deleteOnFailure : Bool := false
  /-- Existing resources to take into the state, by address. -/
  imports : Dict String := {}

namespace Action

def mode (a : Action) : Mode := a.backend.mode

def call (c : Engine.Call) : Run c.Reply := Program.step (S := steps) (.engine c) .done

def validate (a : Action) : RunTask Unit := do
  if Text.isAllBlank a.envName then throw (.validation "env_name must not be empty")

def workspaceExists (a : Action) : RunTask Bool := do
  let names ← Task.ofProgram (call .listWorkspaces)
  return names.contains a.envName

def ensureWorkspace (a : Action) : RunTask Unit := do
  if ← a.workspaceExists then return ()
  Task.lift (log .info ("Creating workspace '" ++ a.envName ++ "'"))
  Task.ofProgram (call (.newWorkspace a.envName))

def currentSerial (a : Action) : RunTask Nat := do
  let raw ← Task.ofProgram (call (.pullState a.envName))
  ExceptT.mk (pure (parseSerial raw))

def adoptAll (a : Action) (tracked : List String) : List (String × String) → RunTask Unit
  | [] => return ()
  | (address, id) :: rest => do
    if tracked.contains address then
      Task.lift (log .info ("Skipping import of '" ++ address ++ "': already in state"))
    else
      Task.lift (log .info ("Importing '" ++ id ++ "' as '" ++ address ++ "'"))
      Task.ofProgram (call (.adopt a.envName address id))
    adoptAll a tracked rest

def prepareState (a : Action) : RunTask Unit := do
  match a.backend with
  | .workspace =>
    Task.ofProgram (call (.initBackend a.envName))
    a.ensureWorkspace
  | .stored file =>
    Task.ofProgram (call .initLocal)
    let prior ← fromStorage file.download
    if prior.isZero then
      Task.lift (log .info
        ("No prior state at '" ++ file.key ++ "'; this is the first apply"))

def setup (a : Action) : RunTask Unit := do
  a.prepareState
  if a.imports.isEmpty then return ()
  let tracked ← Task.ofProgram (call (.listState a.envName))
  adoptAll a tracked a.imports.entries

def recordVersion (a : Action) : RunTask Version := do
  match a.backend with
  | .workspace => return Version.ofSerial a.envName (← a.currentSerial)
  | .stored file => return Version.ofStorage a.envName (← fromStorage file.upload)

def readBack (a : Action) : RunTask RunResult := do
  let version ← a.recordVersion
  let output ← Task.ofProgram (call (.readOutput a.envName))
  return ⟨version, output⟩

def attemptApply (a : Action) : RunTask RunResult := do
  (Task.ofProgram (call (.apply a.envName))).mapError Error.applyFailed
  a.readBack.mapError Error.postApply

def destroyed (a : Action) : RunResult := .withoutOutput (.empty a.envName)

def dropState (a : Action) : RunTask Unit := do
  match a.backend with
  | .workspace =>
    if a.envName = Engine.defaultWorkspace then
      Task.lift (log .warn ("Keeping the '" ++ Engine.defaultWorkspace ++ "' workspace"))
    else
      Task.ofProgram (call (.deleteWorkspace a.envName))
  | .stored file => fromStorage file.delete

def attemptDestroy (a : Action) : RunTask RunResult := do
  Task.ofProgram (call (.destroy a.envName))
  a.dropState
  return a.destroyed

def preservePartialState (a : Action) : Run Unit := do
  match a.backend with
  | .workspace => return ()
  | .stored file =>
    if ← file.existsLocally then
      match ← file.upload.run with
      | .ok version =>
        log .warn ("Uploaded partial state to '" ++ file.key ++ "' (version " ++
          version.display ++ ")")
      | .error e => log .error ("Failed to upload partial state: " ++ e.message)

/-- Deals with a failed apply, and says which error to report. -/
def recover (a : Action) (failure : Error) : Run Error := do
  if !failure.isApplyFailed then return failure
  if !a.deleteOnFailure then
    a.preservePartialState
    return failure
  log .warn "Cleaning up partially created resources..."
  match ← a.attemptDestroy.run with
  | .ok _ =>
    log .warn "Cleanup finished; the apply error still stands"
    return failure
  | .error second =>
    log .error "Failed to run terraform destroy"
    a.preservePartialState
    return .rollback failure second

def missingState (a : Action) (planOnly : Bool) (text : String) : RunTask RunResult := do
  if planOnly then
    Task.lift (log .info (text ++ " Returning an empty plan version."))
    return .withoutOutput (.plan a.envName)
  throw (.storageNotFound (text ++
    "\nIf you intended to run the `destroy` action, add `put.get_params.action: destroy`."))

/-- Creates or changes the environment. -/
def apply (a : Action) : RunTask RunResult := do
  a.validate
  a.setup
  Task.lift (log .info ("== Terraform Apply: " ++ a.envName ++ " =="))
  match ← Task.outcome a.attemptApply with
  | .ok result =>
    Task.lift (log .info
      ("Successfully ran terraform apply (" ++ result.version.display ++ ")"))
    return result
  | .error failure =>
    Task.lift (log .error "Failed to run terraform apply")
    throw (← Task.lift (a.recover failure))

def hasState (a : Action) : RunTask Bool := do
  match a.backend with
  | .workspace =>
    Task.ofProgram (call (.initBackend a.envName))
    a.workspaceExists
  | .stored file =>
    Task.ofProgram (call .initLocal)
    return !(← fromStorage file.download).isZero

/-- Tears the environment down; one that has no state is down already. -/
def destroy (a : Action) : RunTask RunResult := do
  a.validate
  Task.lift (log .info ("== Terraform Destroy: " ++ a.envName ++ " =="))
  if ← a.hasState then
    let result ← a.attemptDestroy
    Task.lift (log .info "Successfully ran terraform destroy")
    return result
  else
    Task.lift (log .info
      ("Environment '" ++ a.envName ++ "' has no state; nothing to destroy"))
    return a.destroyed

def fetch (a : Action) (planOnly : Bool) : RunTask RunResult := do
  a.validate
  match a.backend with
  | .workspace =>
    Task.ofProgram (call (.initBackend a.envName))
    if ← a.workspaceExists then
      let serial ← a.currentSerial
      let output ← Task.ofProgram (call (.readOutput a.envName))
      return ⟨.ofSerial a.envName serial, output⟩
    else
      a.missingState planOnly
        ("Workspace '" ++ a.envName ++ "' does not exist in backend.")
  | .stored file =>
    Task.ofProgram (call .initLocal)
    let version ← fromStorage file.download
    if version.isZero then
      a.missingState planOnly ("State file does not exist with key '" ++ file.key ++ "'.")
    else
      let output ← Task.ofProgram (call (.readOutput a.envName))
      return ⟨.ofStorage a.envName version, output⟩

def stateContents (a : Action) : RunTask Bytes :=
  match a.backend with
  | .workspace => Task.ofProgram (call (.pullState a.envName))
  | .stored file => fromStorage file.readLocal

def engineVersion : RunTask String := Task.ofProgram (call .engineVersion)

end Action

end Provision.Lifecycle
