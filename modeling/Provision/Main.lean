import Provision.CommandLine
import Provision.Time.Epoch

/-!
# The program

Lends the command line the files, the terminal, the clock and the random numbers of the
machine. Nothing here starts a process or opens a connection: such requests are answered with
a failure.
-/

namespace Provision

open Provision.Host

def faultOf (e : IO.Error) : Fault :=
  match e with
  | .noFileOrDirectory _ _ _ => .notFound
  | .permissionDenied _ _ _ => .denied
  | .alreadyExists _ _ _ => .alreadyExists
  | .inappropriateType _ code _ => if code = 20 then .notADirectory else .isADirectory
  | .invalidArgument _ code _ => if code = 36 then .nameTooLong else .other (toString e)
  | e => .other (toString e)

def orFault {α : Type} (act : IO α) : IO (Except Fault α) := do
  try return .ok (← act)
  catch e => return .error (faultOf e)

def bytesOfArray (a : ByteArray) : Bytes := a.data.toList

partial def readAll (input : IO.FS.Stream) (acc : Bytes) : IO Bytes := do
  let chunk ← input.read 65536
  if chunk.isEmpty then return acc else readAll input (acc ++ bytesOfArray chunk)

def randomUuid : IO Uuid := do
  let random ← IO.getRandomBytes 16
  let byte (i : Nat) : UInt8 := (random.data[i]?).getD 0
  return ⟨Vector.ofFn fun i =>
    if i.val = 6 then byte 6 % 16 + 0x40
    else if i.val = 8 then byte 8 % 64 + 0x80
    else byte i.val⟩

def currentTime : IO Timestamp := do
  let (_, path) ← IO.FS.createTempFile
  let data ← path.metadata
  IO.FS.removeFile path
  return .ofUnix data.modified.sec data.modified.nsec.toNat

def look (path : String) : IO (Option Bool) := do
  try
    let real ← IO.FS.realPath path
    if ← real.pathExists then return some (← real.isDir) else return none
  catch _ => return none

def answerRequest : (r : Request) → IO r.Reply
  | .readFile path => orFault do return bytesOfArray (← IO.FS.readBinFile path)
  | .writeFile path content => orFault (IO.FS.writeBinFile path ⟨content.toArray⟩)
  | .removeFile path => orFault (IO.FS.removeFile path)
  | .makeDirectories path => orFault (IO.FS.createDirAll path)
  | .isFile path => do return (← look path) = some false
  | .isDirectory path => do return (← look path) = some true
  | .pathExists path => do return (← look path).isSome
  | .openScratch => orFault do return (← IO.FS.createTempDir).toString
  | .closeScratch path => do
    let _ ← orFault (IO.FS.removeDirAll path)
  | .start _ => return .error (.other "processes are not available")
  | .send _ => return .error .unreachable
  | .freshUuid => randomUuid
  | .now => currentTime
  | .log line => do
    if line.level ≠ .debug then
      IO.eprintln ("[" ++ line.level.text ++ "] " ++ line.message)
  | .readInput => do orFault (readAll (← IO.getStdin) [])
  | .printOutput text => IO.print text
  | .printError text => IO.eprint text

end Provision

def main (arguments : List String) : IO UInt32 := do
  let code ← (Provision.CommandLine.run arguments).interpret Provision.answerRequest
  return UInt32.ofNat code
