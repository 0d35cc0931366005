import Provision.Engine.Terraform
import Provision.Lifecycle.Action
import Provision.Pipeline.GeneratedName
import Provision.Pipeline.Request
import Provision.Storage.Build
import Provision.Yaml.Resolve

/-!
# Settings of a step

What a step runs with: the resource's configuration, overridden by files and by the step's own
parameters. The environment's name comes from the parameters for a put step and from the
version for a get step.
-/

namespace Provision.Pipeline

open Provision.Host

abbrev StepTask (α : Type) : Type := Task Host.effects Lifecycle.Error α

structure Settings where
  action : ActionKind
  envName : String
  /-- Where the engine runs; in the scratch directory if unset. -/
  terraformSource : Option String
  backendType : Option String
  backendConfig : Dict Json.Value
  storage : Option Storage.Config
  vars : Dict Json.Value
  env : Dict String
  deleteOnFailure : Bool
  imports : Dict String
  outputModule : Option String
  outputStatefile : Bool
  planOnly : Bool

def nonBlank (o : Option String) : Option String :=
  (o.map Text.trim).filter fun s => !s.isEmpty

namespace Settings

def mode (s : Settings) : Mode :=
  if s.backendType.isSome then .workspace else .legacy

def validate (s : Settings) : Except Lifecycle.Error Unit :=
  if Text.isAllBlank s.envName then .error (.validation "env_name must not be empty")
  else
    match s.backendType, s.storage with
    | none, none =>
      .error (.validation "Must specify `source.backend_type` or `source.storage`")
    | some _, some _ =>
      .error (.validation
        "`source.backend_type` and `source.storage` are mutually exclusive")
    | _, _ => .ok ()

def loadMap {α : Type} (parse : String → Option (Dict α)) (kind path : String) :
    StepTask (Dict α) := do
  match ← Task.lift (readText path) with
  | .error fault =>
    throw (.validation ("Failed to read " ++ kind ++ " '" ++ path ++ "': " ++ fault.message))
  | .ok text =>
    if Text.isAllBlank text then return {}
    match parse text with
    | some d => return d
    | none =>
      throw (.validation ("Failed to parse " ++ kind ++ " '" ++ path ++ "': <yaml error>"))

def loadAll {α : Type} (parse : String → Option (Dict α)) (kind directory : String)
    (start : Dict α) : List String → StepTask (Dict α)
  | [] => return start
  | file :: rest => do
    let d ← loadMap parse kind (Path.join directory file)
    loadAll parse kind directory (start.extend d) rest

def nameFromFile (path : String) : StepTask String := do
  match ← Task.lift (readText path) with
  | .ok text => return Text.trim text
  | .error fault =>
    throw (.validation
      ("Failed to read env_name_file '" ++ path ++ "': " ++ fault.message))

/-- The first of: the parameter, the name file, a generated name, the resource's own. -/
def resolveEnvName (r : Request) (directory : String) : StepTask String := do
  let name ←
    match nonBlank r.params.envName with
    | some name => pure name
    | none =>
      match nonBlank r.params.envNameFile with
      | some file => nameFromFile (Path.join directory file)
      | none =>
        if r.params.generateRandomName then
          (fun u => generatedName u) <$> Task.lift freshUuid
        else
          match nonBlank r.source.envName with
          | some name => pure name
          | none =>
            throw (.validation
              ("Must specify `put.params.env_name`, `put.params.env_name_file`, " ++
                "`put.params.generate_random_name`, or `source.env_name`"))
  if name.isEmpty then throw (.validation "Resolved env_name is empty")
  return name

def merge (r : Request) (directory envName : String) (terraformSource : Option String) :
    StepTask Settings := do
  if r.source.privateKey.isSome then
    Task.lift (log .warn
      "`source.private_key` is ignored; configure module access on the agent")
  let vars ←
    loadAll Yaml.Document.values? "var file" directory r.source.vars r.params.varFiles
  let imports ←
    loadAll Yaml.Document.texts? "import file" directory r.source.imports r.params.importFiles
  let s : Settings := {
    action := r.params.action
    envName
    terraformSource
    backendType := nonBlank r.source.backendType
    backendConfig := r.source.backendConfig
    storage := r.source.storage
    vars := vars.extend r.params.vars
    env := r.source.env.extend r.params.env
    deleteOnFailure := r.source.deleteOnFailure || r.params.deleteOnFailure
    imports := imports.extend r.params.imports
    outputModule := nonBlank r.params.outputModule
    outputStatefile := r.params.outputStatefile
    planOnly := r.params.planOnly }
  ExceptT.mk (pure s.validate)
  return s

def ofPut (r : Request) (directory : String) : StepTask Settings := do
  let envName ← resolveEnvName r directory
  match r.params.terraformSource.or r.source.terraformSource with
  | none => throw (.validation "Missing required field `terraform_source`")
  | some source => merge r directory envName (some (Path.join directory source))

def ofGet (r : Request) (directory : String) : StepTask Settings := do
  match r.version with
  | none => throw (.validation "Missing `version` in request")
  | some version =>
    match version.validate with
    | .error e => throw (.validation ("Invalid Version request: " ++ e.message))
    | .ok () =>
      merge r directory version.envName (r.source.terraformSource.map (Path.join directory))

def terraformConfig (s : Settings) (scratch : String) (stateFile : Option Lifecycle.StateFile) :
    Engine.Terraform.Config :=
  let c : Engine.Terraform.Config := {
    source := s.terraformSource.getD scratch
    scratch
    vars := s.vars
    env := s.env
    outputModule := s.outputModule }
  match stateFile with
  | some file => { c with stateFile := some file.localPath }
  | none => { c with backendType := s.backendType, backendConfig := s.backendConfig }

end Settings

/-- An action, with the engine and the driver that it runs with. -/
structure Prepared where
  action : Lifecycle.Action
  config : Engine.Terraform.Config
  driver : Storage.Driver

namespace Prepared

def run {α : Type} (p : Prepared) (t : Lifecycle.RunTask α) : StepTask α :=
  Task.ofProgram (Lifecycle.onHost (Engine.Terraform.engine p.config) p.driver t.run)

def draft (s : Settings) (scratch : String) : Except Lifecycle.Error Prepared :=
  let action (backend : Lifecycle.Backend) : Lifecycle.Action :=
    ⟨backend, s.envName, s.deleteOnFailure, s.imports⟩
  match s.mode, s.storage with
  | .legacy, some storage =>
    match Storage.Driver.ofConfig storage with
    | .error e => .error (Lifecycle.Error.ofStorage e)
    | .ok driver =>
      let file := Lifecycle.StateFile.ofEnv s.envName scratch
      .ok ⟨action (.stored file), s.terraformConfig scratch (some file), driver⟩
  | _, _ =>
    .ok ⟨action .workspace, s.terraformConfig scratch none, Storage.Nowhere.driver⟩

def ofSettings (s : Settings) (scratch : String) : StepTask Prepared := do
  let p ← ExceptT.mk (pure (draft s scratch))
  Task.ofProgram p.config.validate
  Task.lift (log .debug ("Running in " ++ p.action.mode.text ++
    " mode for environment '" ++ s.envName ++ "'"))
  return p

end Prepared

end Provision.Pipeline
