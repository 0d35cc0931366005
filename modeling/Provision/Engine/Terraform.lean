import Provision.Engine.Terraform.Config
import Provision.Engine.Terraform.Reply
import Provision.Lifecycle.Step

/-!
# Terraform as an engine

Every call on the engine is one terraform command in the source directory. `TF_WORKSPACE`
names the environment for commands on its workspace and is unset for all others, whatever the
configured variables say. With a local state file, commands on the state name it, and those
that would read a missing one are answered without a command.
-/

namespace Provision.Engine.Terraform

open Provision.Host

abbrev Command (α : Type) : Type := Task Host.effects Lifecycle.Error α

def backendOption : String := "-backend-config="

def settingKey (setting : String) : String :=
  String.ofList (setting.toList.takeWhile (· ≠ '='))

def maskArgument (argument : String) : String :=
  match Text.after? backendOption argument with
  | some setting => backendOption ++ settingKey setting ++ "=***"
  | none => argument

def displayCommand (arguments : List String) : String :=
  "terraform " ++ " ".intercalate (arguments.map maskArgument)

def backendArguments (c : Config) : List String :=
  c.backendConfig.entries.map fun e => backendOption ++ e.1 ++ "=" ++ e.2.display

def stateArguments (c : Config) : List String :=
  (c.stateFile.map fun path => "-state=" ++ path).toList

def moduleArguments (c : Config) : List String :=
  (c.outputModule.map fun name => "-module=" ++ name).toList

def workspaceOf (c : Config) (env : String) : Option String :=
  match c.mode with
  | .workspace => some env
  | .legacy => none

/-- The variables of a command. The workspace overrides whatever the configuration says. -/
def environment (c : Config) (workspace : Option String) : Dict (Option String) :=
  let automatic : Dict (Option String) :=
    Dict.ofList [("TF_IN_AUTOMATION", some "true"), ("TF_INPUT", some "false")]
  (automatic.extend (c.env.map some)).insert "TF_WORKSPACE" workspace

def invocation (c : Config) (arguments : List String) (workspace : Option String) :
    Invocation where
  program := c.binary
  arguments
  directory := c.source
  environment := environment c workspace

structure Printed where
  output : Bytes
  /-- Output and errors, for people. -/
  combined : String

def Printed.text (p : Printed) : String := Text.Utf8.lossy p.output

def run (c : Config) (arguments : List String) (workspace : Option String) :
    Command Printed := do
  let display := displayCommand arguments
  Task.lift (log .debug ("Running: " ++ display))
  match ← Task.lift (start (invocation c arguments workspace)) with
  | .error fault => throw (.engine display ("failed to start: " ++ fault.message) "")
  | .ok finished =>
    let combined :=
      Reply.combine (Text.Utf8.lossy finished.output) (Text.Utf8.lossy finished.errors)
    if finished.status.isSuccess then return ⟨finished.output, combined⟩
    throw (.engine display finished.status.message combined)

def echo : List String → HostProgram Unit
  | [] => return ()
  | line :: rest => do
    log .info line
    echo rest

def runLogged (c : Config) (arguments : List String) (workspace : Option String) :
    Command Unit := do
  let printed ← run c arguments workspace
  Task.lift (echo (Text.lines printed.combined))

def varArguments (c : Config) : Command (List String) := do
  if c.vars.isEmpty then return []
  let content := Text.Utf8.encode (Json.Value.ofDict c.vars).pretty
  match ← Task.lift (writeFile c.varsPath content) with
  | .ok () => return ["-var-file=" ++ c.varsPath]
  | .error fault =>
    throw (.validation
      ("Failed to write vars file '" ++ c.varsPath ++ "': " ++ fault.message))

def writeOverride (c : Config) (backendType : String) : Command Unit := do
  let document := Json.Value.object [("terraform",
    .object [("backend", .object [(backendType, .object [])])])]
  match ← Task.lift (writeFile c.overridePath (Text.Utf8.encode document.pretty)) with
  | .ok () => return ()
  | .error fault =>
    throw (.validation
      ("Failed to write backend override '" ++ c.overridePath ++ "': " ++ fault.message))

def stateMissing (c : Config) : HostProgram Bool := do
  match c.stateFile with
  | none => return false
  | some path => return !(← isFile path)

def initBackend (c : Config) (env : String) : Command Unit := do
  match c.backendType with
  | none => throw (.validation "init_with_backend requires backend_type")
  | some backendType =>
    writeOverride c backendType
    Task.lift (log .info ("Initializing " ++ backendType ++ " backend for environment '" ++
      env ++ "'"))
    let _ ← run c (["init", "-input=false", "-no-color", "-reconfigure", "-get=true"] ++
      backendArguments c) none

def initLocal (c : Config) : Command Unit := do
  let _ ← run c ["init", "-input=false", "-no-color", "-backend=false", "-get=true"] none

def listWorkspaces (c : Config) : Command (List String) := do
  let printed ← run c ["workspace", "list"] none
  return Reply.workspaces printed.text

/-- A workspace that exists already was made by another run. -/
def newWorkspaceError (name : String) (e : Lifecycle.Error) : Lifecycle.Error :=
  match e with
  | .engine _ _ output =>
    if Text.contains output "already exists" then .workspaceRace name output else e
  | e => e

def newWorkspace (c : Config) (name : String) : Command Unit := do
  let _ ← (run c ["workspace", "new", name] none).mapError (newWorkspaceError name)

/-- The current workspace cannot be deleted, so the command runs in the default one. -/
def deleteWorkspace (c : Config) (name : String) : Command Unit := do
  let _ ← run c ["workspace", "delete", name] (some defaultWorkspace)

def mutate (c : Config) (verb env : String) : Command Unit := do
  let vars ← varArguments c
  runLogged c ([verb, "-auto-approve", "-input=false", "-no-color"] ++ vars ++ stateArguments c)
    (workspaceOf c env)

def pullState (c : Config) (env : String) : Command Bytes := do
  match c.stateFile with
  | some path =>
    match ← Task.lift (readFile path) with
    | .ok content => return content
    | .error fault =>
      throw (.storageRead ("Failed to read state file '" ++ path ++ "': " ++ fault.message))
  | none => return (← run c ["state", "pull"] (workspaceOf c env)).output

def listState (c : Config) (env : String) : Command (List String) := do
  if ← Task.lift (stateMissing c) then return []
  let printed ← run c (["state", "list"] ++ stateArguments c) (workspaceOf c env)
  return Reply.addresses printed.text

def adopt (c : Config) (env address id : String) : Command Unit := do
  let vars ← varArguments c
  runLogged c (["import", "-input=false", "-no-color"] ++ vars ++ stateArguments c ++
    [address, id]) (workspaceOf c env)

def readOutput (c : Config) (env : String) : Command Outputs := do
  if ← Task.lift (stateMissing c) then return {}
  let arguments :=
    ["output", "-json", "-no-color"] ++ stateArguments c ++ moduleArguments c
  let printed ← run c arguments (workspaceOf c env)
  match Reply.outputs? printed.output with
  | some outputs => return outputs
  | none =>
    throw (.engine (displayCommand arguments) "unparsable output JSON: <json error>"
      printed.text)

def engineVersion (c : Config) : Command String := do
  let printed ← run c ["-v"] none
  match Reply.version? printed.text with
  | some version => return version
  | none => throw (.engine "terraform -v" "unrecognized version output" printed.combined)

def engine (c : Config) : Lifecycle.EngineAnswer
  | .initBackend env => (initBackend c env).run
  | .initLocal => (initLocal c).run
  | .listWorkspaces => (listWorkspaces c).run
  | .newWorkspace name => (newWorkspace c name).run
  | .deleteWorkspace name => (deleteWorkspace c name).run
  | .apply env => (mutate c "apply" env).run
  | .destroy env => (mutate c "destroy" env).run
  | .pullState env => (pullState c env).run
  | .listState env => (listState c env).run
  | .adopt env address id => (adopt c env address id).run
  | .readOutput env => (readOutput c env).run
  | .engineVersion => (engineVersion c).run

end Provision.Engine.Terraform
