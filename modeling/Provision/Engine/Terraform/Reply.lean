import Provision.Output

/-!
# What terraform prints

The texts that terraform's commands answer with, read as data. Lists have one item a line,
where blanks around the item do not count.
-/

namespace Provision.Engine.Terraform.Reply

def nonEmptyLines (text : String) (item : String → String) : List String :=
  ((Text.lines text).map item).filter fun s => !s.isEmpty

def unstar (line : String) : String := Text.trim (Text.trimCharStart '*' (Text.trim line))

def workspaces (text : String) : List String := nonEmptyLines text unstar

def addresses (text : String) : List String := nonEmptyLines text Text.trim

def isAsciiBlank (b : UInt8) : Bool :=
  b = 0x20 || b = 0x09 || b = 0x0A || b = 0x0C || b = 0x0D

def outputs? (raw : Bytes) : Option Outputs :=
  if raw.all isAsciiBlank then some {}
  else
    match Json.decodeBytes Outputs.decoder raw with
    | .ok o => some o
    | .error _ => none

def version? (text : String) : Option String := do
  let first ← (Text.lines text).head?
  return Text.trim (← Text.after? "Terraform v" (Text.trim first))

/-- Both texts without the blanks at their ends; a blank one is left out. -/
def combine (output errors : String) : String :=
  if Text.isAllBlank output then Text.trimEnd errors
  else if Text.isAllBlank errors then Text.trimEnd output
  else Text.trimEnd output ++ "\n" ++ Text.trimEnd errors

end Provision.Engine.Terraform.Reply
