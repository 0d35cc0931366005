import Provision.Host.Effects
import Provision.Storage.Error
import Provision.Storage.ObjectVersion

/-!
# Storage drivers

A driver keeps objects under keys and tells the version of each. Absence has two answers on
purpose: asked for its version, an absent key has the zero version; asked for its content, it
is an error.
-/

namespace Provision.Storage

inductive Call where
  | upload (key : String) (content : Bytes)
  | download (key : String)
  | version (key : String)
  | delete (key : String)
deriving DecidableEq

abbrev Call.Reply : Call → Type
  | upload _ _ => Except Error ObjectVersion
  | download _ => Except Error (Bytes × ObjectVersion)
  | version _ => Except Error ObjectVersion
  | delete _ => Except Error Unit

namespace Call

def key : Call → String
  | upload key _ => key
  | download key => key
  | version key => key
  | delete key => key

def verb : Call → String
  | upload _ _ => "upload"
  | download _ => "download"
  | version _ => "version"
  | delete _ => "delete"

end Call

structure Driver where
  name : String
  answer : (c : Call) → HostProgram c.Reply

abbrev Work (α : Type) : Type := Task Host.effects Error α

def attempt {α : Type} (p : HostProgram (Except Host.Fault α)) (report : Host.Fault → Error) :
    Work α :=
  (Task.ofProgram p).mapError report

end Provision.Storage
