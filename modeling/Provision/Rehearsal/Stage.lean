import Provision.Lifecycle.Step
import Provision.Rehearsal.Machine

/-!
# Rehearsed runs

A stage answers the steps of a run: an engine in memory that follows a script, a storage
driver some of whose calls are made to fail, and a rehearsed machine. All calls are recorded.
-/

namespace Provision.Rehearsal

open Provision.Host

/-- For every kind of call the entries that its calls take one after the other. -/
abbrev Cues (α : Type) : Type := Dict (List (Option α))

def Cues.take {α : Type} (c : Cues α) (kind : String) : Option α × Cues α :=
  match c.get? kind with
  | some (entry :: rest) => (entry, c.insert kind rest)
  | _ => (none, c)

def callWords : Engine.Call → String × List String
  | .initBackend env => ("init_with_backend", [env])
  | .initLocal => ("init", [])
  | .listWorkspaces => ("workspace_list", [])
  | .newWorkspace name => ("workspace_new", [name])
  | .deleteWorkspace name => ("workspace_delete", [name])
  | .apply env => ("apply", [env])
  | .destroy env => ("destroy", [env])
  | .pullState env => ("state_pull", [env])
  | .listState env => ("state_list", [env])
  | .adopt env address id => ("import", [env, address, id])
  | .readOutput env => ("output", [env])
  | .engineVersion => ("version", [])

structure Engine where
  workspaces : List String := []
  /-- The addresses of the resources in the state. -/
  tracked : List String := []
  failures : Cues Lifecycle.Error := {}
  /-- What calls answer, or write to the local state file. -/
  answers : Cues Bytes := {}
  stateFile : String
  calls : Array String := #[]

structure Stage where
  machine : Machine
  engine : Engine
  storageFailures : Cues Storage.Error := {}
  storageCalls : Array String := #[]

namespace Stage

def record (s : Stage) (c : Engine.Call) : Stage :=
  let (name, arguments) := callWords c
  { s with engine := { s.engine with
    calls := s.engine.calls.push (" ".intercalate (name :: arguments)) } }

def takeFailure (s : Stage) (c : Engine.Call) : Option Lifecycle.Error × Stage :=
  let (failure, failures) := s.engine.failures.take (callWords c).1
  (failure, { s with engine := { s.engine with failures } })

def takeAnswer (s : Stage) (c : Engine.Call) : Option Bytes × Stage :=
  let (answer, answers) := s.engine.answers.take (callWords c).1
  (answer, { s with engine := { s.engine with answers } })

def writeState (s : Stage) (c : Engine.Call) : Stage :=
  match s.takeAnswer c with
  | (some content, s) =>
    { s with machine := (s.machine.change
        (s.machine.disk.write s.machine.current s.engine.stateFile content)).2 }
  | (none, s) => s

def orFail {α : Type} (s : Stage) (c : Engine.Call)
    (act : Stage → Except Lifecycle.Error α × Stage) : Except Lifecycle.Error α × Stage :=
  match s.takeFailure c with
  | (some e, s) => (.error e, s)
  | (none, s) => act s

def setWorkspaces (s : Stage) (names : List String) : Stage :=
  { s with engine := { s.engine with workspaces := names } }

def defaultState : Bytes := Text.Utf8.encode "\x7b\"serial\": 5\x7d"

def defaultOutput : Bytes := Text.Utf8.encode "\x7b\"url\":\x7b\"value\":\"http://x\"\x7d\x7d"

def defaultVersion : Bytes := Text.Utf8.encode "1.5.7"

def answerOr (s : Stage) (c : Engine.Call) (default : Bytes) : Bytes × Stage :=
  let (answer, s) := s.takeAnswer c
  (answer.getD default, s)

def outputsOf (raw : Bytes) : Except Lifecycle.Error Outputs :=
  match Json.decodeBytes Outputs.decoder raw with
  | .ok o => .ok o
  | .error e => .error (.validation e.message)

def done (s : Stage) : Except Lifecycle.Error Unit × Stage := (.ok (), s)

def answerEngine (s : Stage) : (c : Engine.Call) → c.Reply × Stage
  | .initBackend env => (s.record (.initBackend env)).orFail (.initBackend env) done
  | .initLocal => (s.record .initLocal).orFail .initLocal done
  | .listWorkspaces =>
    (s.record .listWorkspaces).orFail .listWorkspaces fun s => (.ok s.engine.workspaces, s)
  | .newWorkspace name =>
    (s.record (.newWorkspace name)).orFail (.newWorkspace name) fun s =>
      (.ok (), s.setWorkspaces (s.engine.workspaces ++ [name]))
  | .deleteWorkspace name =>
    (s.record (.deleteWorkspace name)).orFail (.deleteWorkspace name) fun s =>
      (.ok (), s.setWorkspaces (s.engine.workspaces.filter (· ≠ name)))
  | .apply env => ((s.record (.apply env)).writeState (.apply env)).orFail (.apply env) done
  | .destroy env =>
    ((s.record (.destroy env)).writeState (.destroy env)).orFail (.destroy env) done
  | .pullState env =>
    (s.record (.pullState env)).orFail (.pullState env) fun s =>
      let (raw, s) := s.answerOr (.pullState env) defaultState
      (.ok raw, s)
  | .listState env =>
    (s.record (.listState env)).orFail (.listState env) fun s => (.ok s.engine.tracked, s)
  | .adopt env address id =>
    (s.record (.adopt env address id)).orFail (.adopt env address id) done
  | .readOutput env =>
    (s.record (.readOutput env)).orFail (.readOutput env) fun s =>
      let (raw, s) := s.answerOr (.readOutput env) defaultOutput
      (outputsOf raw, s)
  | .engineVersion =>
    (s.record .engineVersion).orFail .engineVersion fun s =>
      let (raw, s) := s.answerOr .engineVersion defaultVersion
      (.ok (Text.Utf8.lossy raw), s)

def failedCall (e : Storage.Error) : (c : Storage.Call) → c.Reply
  | .upload _ _ => .error e
  | .download _ => .error e
  | .version _ => .error e
  | .delete _ => .error e

def answerStorage (driver : Storage.Driver) (s : Stage) (c : Storage.Call) : c.Reply × Stage :=
  let s := { s with storageCalls := s.storageCalls.push (c.verb ++ " " ++ c.key) }
  let (failure, storageFailures) := s.storageFailures.take c.verb
  let s := { s with storageFailures }
  match failure with
  | some e => (failedCall e c, s)
  | none =>
    let (reply, machine) := s.machine.run (driver.answer c)
    (reply, { s with machine })

def answer (driver : Storage.Driver) : (step : Lifecycle.Step) → StateM Stage step.Reply
  | .engine c => fun s => s.answerEngine c
  | .storage c => fun s => s.answerStorage driver c
  | .host r => fun s =>
    let (reply, machine) := (Machine.answer r).run s.machine
    (reply, { s with machine })

def run {α : Type} (s : Stage) (driver : Storage.Driver) (p : Lifecycle.Run α) : α × Stage :=
  (p.interpret (answer driver)).run s

end Stage

end Provision.Rehearsal
