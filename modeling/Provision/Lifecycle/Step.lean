import Provision.Engine.Call
import Provision.Storage.Driver

/-!
# Steps of a run

A run takes three kinds of steps: calls on the engine, calls on the storage driver, and
requests to its host. An engine and a driver that are themselves programs on the host turn a
run into one program on the host.
-/

namespace Provision.Lifecycle

inductive Step where
  | engine (c : Engine.Call)
  | storage (c : Storage.Call)
  | host (r : Host.Request)

abbrev Step.Reply : Step → Type
  | engine c => c.Reply
  | storage c => c.Reply
  | host r => r.Reply

abbrev steps : Signature := ⟨Step, Step.Reply⟩

abbrev Run (α : Type) : Type := Program steps α

def host (r : Host.Request) : Run r.Reply := Program.step (S := steps) (.host r) .done

def log (level : Host.Level) (message : String) : Run Unit := host (.log ⟨level, message⟩)

abbrev StorageTask (α : Type) : Type := Task steps Storage.Error α

/-- A part of a run that works on an environment. -/
abbrev RunTask (α : Type) : Type := Task steps Error α

def fromStorage {α : Type} (t : StorageTask α) : RunTask α := t.mapError Error.ofStorage

abbrev EngineAnswer : Type := (c : Engine.Call) → HostProgram c.Reply

def Step.onHost (engine : EngineAnswer) (driver : Storage.Driver) :
    (s : Step) → HostProgram s.Reply
  | .engine c => engine c
  | .storage c => driver.answer c
  | .host r => Host.ask r

def onHost {α : Type} (engine : EngineAnswer) (driver : Storage.Driver) (p : Run α) :
    HostProgram α :=
  p.interpret (Step.onHost engine driver)

end Provision.Lifecycle
