import Provision.Program
import Provision.Time.Timestamp
import Provision.Host.Fault
import Provision.Host.ObjectStore
import Provision.Host.Process
import Provision.Host.Uuid

/-!
# What a program may ask of its host

Files, processes, the network, fresh identifiers, the clock, the log and the terminal. Every
request is a value, and a host is anything that answers them.
-/

namespace Provision.Host

inductive Level where
  | debug
  | info
  | warn
  | error
deriving DecidableEq

def Level.text : Level → String
  | debug => "DEBUG"
  | info => "INFO"
  | warn => "WARN"
  | error => "ERROR"

structure LogLine where
  level : Level
  message : String
deriving DecidableEq

inductive Request where
  | readFile (path : String)
  | writeFile (path : String) (content : Bytes)
  | removeFile (path : String)
  | makeDirectories (path : String)
  | isFile (path : String)
  | isDirectory (path : String)
  | pathExists (path : String)
  /-- Makes a directory for the files of one run. -/
  | openScratch
  | closeScratch (path : String)
  | start (invocation : Invocation)
  | send (request : ObjectRequest)
  | freshUuid
  | now
  | log (line : LogLine)
  | readInput
  | printOutput (text : String)
  | printError (text : String)

abbrev Request.Reply : Request → Type
  | readFile _ => Except Fault Bytes
  | writeFile _ _ => Except Fault Unit
  | removeFile _ => Except Fault Unit
  | makeDirectories _ => Except Fault Unit
  | isFile _ => Bool
  | isDirectory _ => Bool
  | pathExists _ => Bool
  | openScratch => Except Fault String
  | closeScratch _ => Unit
  | start _ => Except Fault Finished
  | send _ => Except NoReply ObjectReply
  | freshUuid => Uuid
  | now => Timestamp
  | log _ => Unit
  | readInput => Except Fault Bytes
  | printOutput _ => Unit
  | printError _ => Unit

abbrev effects : Signature := ⟨Request, Request.Reply⟩

end Host

abbrev HostProgram (α : Type) : Type := Program Host.effects α

namespace Host

def ask (r : Request) : HostProgram r.Reply := Program.step (S := effects) r .done

def readFile (path : String) : HostProgram (Except Fault Bytes) := ask (.readFile path)

def writeFile (path : String) (content : Bytes) : HostProgram (Except Fault Unit) :=
  ask (.writeFile path content)

def removeFile (path : String) : HostProgram (Except Fault Unit) := ask (.removeFile path)

def makeDirectories (path : String) : HostProgram (Except Fault Unit) :=
  ask (.makeDirectories path)

def isFile (path : String) : HostProgram Bool := ask (.isFile path)

def isDirectory (path : String) : HostProgram Bool := ask (.isDirectory path)

def pathExists (path : String) : HostProgram Bool := ask (.pathExists path)

def start (invocation : Invocation) : HostProgram (Except Fault Finished) :=
  ask (.start invocation)

def send (request : ObjectRequest) : HostProgram (Except NoReply ObjectReply) :=
  ask (.send request)

def freshUuid : HostProgram Uuid := ask .freshUuid

def now : HostProgram Timestamp := ask .now

def log (level : Level) (message : String) : HostProgram Unit := ask (.log ⟨level, message⟩)

def openScratch : HostProgram (Except Fault String) := ask .openScratch

def closeScratch (path : String) : HostProgram Unit := ask (.closeScratch path)

def readInput : HostProgram (Except Fault Bytes) := ask .readInput

def printOutput (text : String) : HostProgram Unit := ask (.printOutput text)

def printError (text : String) : HostProgram Unit := ask (.printError text)

def readText (path : String) : HostProgram (Except Fault String) := do
  match ← readFile path with
  | .error fault => return .error fault
  | .ok bytes =>
    match Text.Utf8.text? bytes with
    | some text => return .ok text
    | none => return .error .notText

end Host

end Provision
