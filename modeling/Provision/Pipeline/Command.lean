import Provision.Pipeline.Response
import Provision.Pipeline.Settings

/-!
# The commands get and put

A command reads a request from its input, and answers with a response on its output or an
error. Its output is one line, written last, or nothing at all. The directory for the files of
a run is removed again however the run ends.
-/

namespace Provision.Pipeline

open Provision.Host

inductive Failure where
  | run (e : Lifecycle.Error)
  | noInput (fault : Fault)
  | noVersion
  | invalidVersion (e : Lifecycle.Error)
  | noScratch (fault : Fault)
  | noFile (name path : String) (fault : Fault)

namespace Failure

def chain : Failure → List String
  | run e => e.chain
  | noInput fault => ["Failed to read request from stdin", fault.message]
  | noVersion => ["Missing `version` in request"]
  | invalidVersion e => "Invalid Version request" :: e.chain
  | noScratch fault =>
    [(Storage.Error.io ("Failed to create scratch directory: " ++ fault.message)).message]
  | noFile name path fault =>
    ["Failed to create " ++ name ++ " file at path '" ++ path ++ "'", fault.message]

def text (f : Failure) : String := ": ".intercalate f.chain

end Failure

abbrev Command (α : Type) : Type := Task Host.effects Failure α

namespace Command

def ofStep {α : Type} (t : StepTask α) : Command α := t.mapError .run

def readRequest : Command Request := do
  let raw ← (Task.ofProgram readInput).mapError .noInput
  ofStep (ExceptT.mk (pure (Request.ofBytes raw)))

def writeResponse (r : Response) : Command Unit :=
  Task.lift (printOutput (r.toJson.compact ++ "\n"))

def writeFile (directory name : String) (content : Bytes) : Command Unit :=
  let path := Path.join directory name
  (Task.ofProgram (Host.writeFile path content)).mapError (.noFile name path)

def sayLine (text : String) : Command Unit := Task.lift (printError (text ++ "\n"))

def banner (title envName : String) : Command Unit := sayLine (title ++ " " ++ envName)

def withScratch {α : Type} (body : String → Command α) : Command α := do
  let directory ← (Task.ofProgram openScratch).mapError .noScratch
  let outcome ← Task.outcome (body directory)
  Task.lift (closeScratch directory)
  ExceptT.mk (pure outcome)

def engineVersion (p : Prepared) : Command (Option String) := do
  match ← Task.outcome (p.run Lifecycle.Action.engineVersion) with
  | .ok version => return some version
  | .error e =>
    Task.lift (log .warn ("Failed to read terraform version: " ++ e.message))
    return none

def liveWarning (envName : String) (e : Lifecycle.Error) : Option String :=
  if e.infrastructureMayBeLive then
    some ("Warning: resources for '" ++ envName ++
      "' may still exist; inspect or destroy them before retrying")
  else none

def preview (s : Settings) (p : Prepared) : Command RunResult := do
  banner "Previewing" s.envName
  let result ← ofStep (p.run (p.action.fetch true))
  return { result with version := { result.version with planOnly := true } }

def create (s : Settings) (p : Prepared) : Command RunResult := do
  banner "Terraform Apply" s.envName
  match ← Task.outcome (p.run p.action.apply) with
  | .ok result =>
    sayLine "Apply complete!"
    return result
  | .error e =>
    if let some warning := liveWarning s.envName e then sayLine warning
    throw (.run e)

def destroy (s : Settings) (p : Prepared) : Command RunResult := do
  banner "Terraform Destroy" s.envName
  let result ← ofStep (p.run p.action.destroy)
  sayLine "Destroy complete!"
  return result

def perform (s : Settings) (p : Prepared) : Command RunResult :=
  if s.planOnly then preview s p
  else
    match s.action with
    | .create => create s p
    | .destroy => destroy s p

/-- Applies or destroys an environment; the files of the step are in `directory`. -/
def put (directory : String) : Command Unit := do
  let request ← readRequest
  let s ← ofStep (Settings.ofPut request directory)
  withScratch fun scratch => do
    let p ← ofStep (Prepared.ofSettings s scratch)
    let result ← perform s p
    writeResponse (.ofResult result (← engineVersion p))

def writeOutputs (directory : String) (result : RunResult) (state : Option Bytes) :
    Command Unit := do
  let metadata := Json.Value.ofDict result.rawOutput
  writeFile directory "metadata" (Text.Utf8.encode metadata.compact)
  if let some content := state then
    writeFile directory Lifecycle.StateFile.localName content

def requestedVersion (r : Request) : Except Failure Version :=
  match r.version with
  | none => .error .noVersion
  | some version =>
    match version.validate with
    | .ok () => .ok version
    | .error e => .error (.invalidVersion e)

def deliver (directory : String) (s : Settings) (p : Prepared) (requested : Version)
    (result : RunResult) : Command Response := do
  writeFile directory "name" (Text.Utf8.encode s.envName)
  if result.version.isZero then
    sayLine "No state yet; nothing to fetch"
    return .bare requested
  let state ←
    if s.outputStatefile then some <$> ofStep (p.run p.action.stateContents) else pure none
  writeOutputs directory result state
  let response := Response.ofResult result (← engineVersion p)
  return if requested.planOnly then { response with version := requested } else response

/-- Fetches state and outputs of an environment into `directory`. -/
def get (directory : String) : Command Unit := do
  let request ← readRequest
  let requested ← ExceptT.mk (pure (requestedVersion request))
  if request.params.action = .destroy then writeResponse (.bare requested)
  else
    let s ← ofStep (Settings.ofGet request directory)
    banner "Fetching" s.envName
    withScratch fun scratch => do
      let p ← ofStep (Prepared.ofSettings s scratch)
      let result ← ofStep (p.run (p.action.fetch requested.planOnly))
      writeResponse (← deliver directory s p requested result)

def exitCode (c : Command Unit) : HostProgram Nat := do
  match ← c.run with
  | .ok () => return 0
  | .error failure =>
    printError ("Error: " ++ failure.text ++ "\n")
    return 1

end Command

end Provision.Pipeline
