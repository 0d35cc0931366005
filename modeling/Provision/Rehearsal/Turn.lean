import Provision.Host.Process
import Provision.Text.Blank

/-!
# Rehearsed processes

A rehearsed process follows a script: it prints what it is told, may replace the state file it
is given, and ends as it is told. What it could see when it started is recorded.
-/

namespace Provision.Rehearsal

open Provision.Host

structure Turn where
  output : Bytes := []
  errors : Bytes := []
  status : ExitStatus := .code 0
  /-- What it writes to the state file that its arguments name. -/
  newState : Option Bytes := none
deriving Inhabited

def exitStatus (code : Int) : ExitStatus := .code (code % 256).toNat

/-- What one process was started with. -/
structure Observation where
  arguments : List String
  directory : String
  environment : List (String × Option String)
  vars : Option Bytes
  /-- The content of the state file before the process did anything. -/
  state : Option Bytes
deriving Inhabited

def optionValue (option : String) (arguments : List String) : Option String :=
  arguments.findSome? fun a => Text.after? option a

end Provision.Rehearsal
