import Provision.Host.Disk
import Provision.Host.Effects
import Provision.Rehearsal.Turn

/-!
# A rehearsed machine

A machine with a disk in memory, a clock that stands still, identifiers that count up, no
network, and one program, whose processes follow a script. It answers every request of a
program on a host, so a run can be rehearsed and looked at afterwards.
-/

namespace Provision.Rehearsal

open Provision.Host

structure Machine where
  disk : Disk := ⟨[]⟩
  current : Location := []
  clock : Timestamp
  /-- Where scratch directories are made. -/
  scratchRoot : Location := ["tmp"]
  scratchCount : Nat := 0
  identifierCount : Nat := 0
  /-- The only program that can be found by its name. -/
  program : String := "terraform"
  script : List Turn := []
  /-- The variables that are recorded of every process. -/
  watched : List String := []
  observations : Array Observation := #[]
  input : Bytes := []
  output : String := ""
  errors : String := ""
  log : Array LogLine := #[]

namespace Machine

def byteAt (n i : Nat) : UInt8 :=
  if i = 6 then 0x40
  else if i = 8 then 0x80
  else UInt8.ofNat (n / Nat.pow 256 (i % 4))

def identifier (n : Nat) : Uuid := ⟨Vector.ofFn fun i => byteAt n i.val⟩

def change (m : Machine) (r : Except Fault Disk) : Except Fault Unit × Machine :=
  match r with
  | .ok disk => (.ok (), { m with disk })
  | .error fault => (.error fault, m)

def makeDirectories (m : Machine) (path : String) : Except Fault Unit × Machine :=
  let (fault, disk) := m.disk.makeDirectories m.current path
  (match fault with
   | none => .ok ()
   | some fault => .error fault, { m with disk })

def plant (m : Machine) (base : Location) (path : String) (content : Option Bytes) : Machine :=
  let full := Path.join (Disk.text base) path
  match content with
  | none => (m.makeDirectories full).2
  | some content =>
    let m := ((Path.parent? full).map fun up => (m.makeDirectories up).2).getD m
    (m.change (m.disk.write m.current full content)).2

def scratchLocation (m : Machine) (n : Nat) : Location :=
  m.scratchRoot ++ ["scratch-" ++ toString n]

def openScratch (m : Machine) : Except Fault String × Machine :=
  let l := m.scratchLocation m.scratchCount
  (.ok (Disk.text l),
    { m with disk := m.disk.put l .directory, scratchCount := m.scratchCount + 1 })

def closeScratch (m : Machine) (path : String) : Machine :=
  match m.disk.enter m.current path with
  | .ok l => { m with disk := m.disk.eraseTree l }
  | .error _ => m

def leftovers (m : Machine) : List Location :=
  (m.disk.entries.map (·.1)).filter fun l => l.dropLast = m.scratchRoot && !l.isEmpty

def hasNul (s : String) : Bool := s.toList.contains '\x00'

def isPassable (i : Invocation) : Bool :=
  !(hasNul i.program || i.arguments.any hasNul || hasNul i.directory ||
    i.environment.entries.any fun e => e.2.any fun v => hasNul e.1 || hasNul v)

/-- Looks the program up: by its path, or by its name unless the search path is changed. -/
def findProgram (m : Machine) (directory : Location) (i : Invocation) : Except Fault Unit :=
  if i.program.toList.contains '/' then
    match m.disk.stat directory i.program with
    | .ok _ => .error .denied
    | .error fault => .error fault
  else if i.program = m.program && !(i.environment.get? "PATH").any Option.isSome then .ok ()
  else .error .notFound

def observe (m : Machine) (directory : Location) (i : Invocation) : Observation :=
  let content (option : String) : Option Bytes := do
    let path ← optionValue option i.arguments
    (m.disk.read directory path).toOption
  { arguments := i.arguments
    directory := Disk.text directory
    environment := m.watched.map fun name => (name, i.finds {} name)
    vars := content "-var-file="
    state := content "-state=" }

def runTurn (m : Machine) (directory : Location) (i : Invocation) : Finished × Machine :=
  let turn := m.script.headD {}
  let seen := m.observe directory i
  let disk :=
    match turn.newState, optionValue "-state=" i.arguments with
    | some content, some path =>
      ((m.disk.write directory path content).toOption).getD m.disk
    | _, _ => m.disk
  (⟨turn.status, turn.output, turn.errors⟩,
    { m with disk, script := m.script.drop 1, observations := m.observations.push seen })

def start (m : Machine) (i : Invocation) : Except Fault Finished × Machine :=
  if !isPassable i then (.error .nulInArgument, m)
  else
    match m.disk.enter m.current i.directory with
    | .error fault => (.error fault, m)
    | .ok directory =>
      match m.findProgram directory i with
      | .error fault => (.error fault, m)
      | .ok () =>
        let (finished, m) := m.runTurn directory i
        (.ok finished, m)

def answer : (r : Request) → StateM Machine r.Reply
  | .readFile path => fun m => (m.disk.read m.current path, m)
  | .writeFile path content => fun m => m.change (m.disk.write m.current path content)
  | .removeFile path => fun m => m.change (m.disk.remove m.current path)
  | .makeDirectories path => fun m => m.makeDirectories path
  | .isFile path => fun m => (m.disk.isFile m.current path, m)
  | .isDirectory path => fun m => (m.disk.isDirectory m.current path, m)
  | .pathExists path => fun m => (m.disk.exists? m.current path, m)
  | .openScratch => fun m => m.openScratch
  | .closeScratch path => fun m => ((), m.closeScratch path)
  | .start i => fun m => m.start i
  | .send _ => fun m => (.error .unreachable, m)
  | .freshUuid => fun m =>
    (identifier m.identifierCount, { m with identifierCount := m.identifierCount + 1 })
  | .now => fun m => (m.clock, m)
  | .log line => fun m => ((), { m with log := m.log.push line })
  | .readInput => fun m => (.ok m.input, m)
  | .printOutput text => fun m => ((), { m with output := m.output ++ text })
  | .printError text => fun m => ((), { m with errors := m.errors ++ text })

def run {α : Type} (m : Machine) (p : HostProgram α) : α × Machine :=
  (p.interpret answer).run m

end Machine

end Provision.Rehearsal
