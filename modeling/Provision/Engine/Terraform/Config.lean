import Provision.Host.Effects
import Provision.Host.Path
import Provision.Json.Value
import Provision.Lifecycle.Error
import Provision.Version

/-!
# Settings of terraform

What every command of one environment is run with. A local state file and a backend exclude
each other: a configuration has the one or the other.
-/

namespace Provision.Engine.Terraform

structure Config where
  binary : String := "terraform"
  /-- The directory that holds the infrastructure's description. -/
  source : String
  /-- The directory for files of this run. -/
  scratch : String
  vars : Dict Json.Value := {}
  env : Dict String := {}
  backendType : Option String := none
  backendConfig : Dict Json.Value := {}
  stateFile : Option String := none
  /-- Shows the outputs of this module only. -/
  outputModule : Option String := none
deriving Inhabited

namespace Config

def mode (c : Config) : Mode :=
  if c.stateFile.isSome then .legacy else .workspace

/-- Is there exactly one place for the state? -/
def validateMode (c : Config) : Except Lifecycle.Error Unit :=
  match c.backendType, c.stateFile with
  | some _, some _ =>
    .error (.validation "backend_type and a legacy state file are mutually exclusive")
  | none, none =>
    .error (.validation "either backend_type or legacy storage must be configured")
  | _, _ => .ok ()

def validate (c : Config) : HostProgram (Except Lifecycle.Error Unit) := do
  if ← Host.isDirectory c.source then return c.validateMode
  return .error (.validation ("terraform source '" ++ c.source ++ "' is not a directory"))

def overridePath (c : Config) : String :=
  Host.Path.join c.source "terrace_backend_override.tf.json"

def varsPath (c : Config) : String := Host.Path.join c.scratch "vars.tfvars.json"

end Config

end Provision.Engine.Terraform
