import Provision.Lifecycle.Error
import Provision.Output

/-!
# Calls on a provisioning engine

What a run asks of the engine that changes the infrastructure. Every call may fail with an
error of its own. Calls on workspaces only serve environments whose state the engine keeps.
-/

namespace Provision.Engine

/-- The workspace that always exists and is never deleted. -/
def defaultWorkspace : String := "default"

inductive Call where
  | initBackend (env : String)
  | initLocal
  | listWorkspaces
  | newWorkspace (name : String)
  | deleteWorkspace (name : String)
  | apply (env : String)
  | destroy (env : String)
  | pullState (env : String)
  | listState (env : String)
  /-- Takes an existing resource into the state, at an address. -/
  | adopt (env : String) (address : String) (id : String)
  | readOutput (env : String)
  | engineVersion
deriving DecidableEq

abbrev Call.Reply : Call → Type
  | initBackend _ => Except Lifecycle.Error Unit
  | initLocal => Except Lifecycle.Error Unit
  | listWorkspaces => Except Lifecycle.Error (List String)
  | newWorkspace _ => Except Lifecycle.Error Unit
  | deleteWorkspace _ => Except Lifecycle.Error Unit
  | apply _ => Except Lifecycle.Error Unit
  | destroy _ => Except Lifecycle.Error Unit
  | pullState _ => Except Lifecycle.Error Bytes
  | listState _ => Except Lifecycle.Error (List String)
  | adopt _ _ _ => Except Lifecycle.Error Unit
  | readOutput _ => Except Lifecycle.Error Outputs
  | engineVersion => Except Lifecycle.Error String

end Provision.Engine
