import Provision.Dict
import Provision.Text.Blank
import Provision.Text.Utf8

/-!
# Processes

How a process is started, what it finds in its environment, and what it leaves behind.
-/

namespace Provision.Host

/-- A command line, the directory to run it in, and the variables it overrides: `none` takes a
variable out of the environment. -/
structure Invocation where
  program : String
  arguments : List String
  directory : String
  environment : Dict (Option String)

namespace Invocation

def fullEnvironment (i : Invocation) (inherited : Dict String) : Dict (Option String) :=
  (inherited.map some).extend i.environment

def environmentLine (entry : String × Option String) : Option String :=
  entry.2.map fun value => entry.1 ++ "=" ++ value

def valueIn (name : String) (lines : List String) : Option String :=
  lines.findSome? (Text.after? (name ++ "="))

def finds (i : Invocation) (inherited : Dict String) (name : String) : Option String :=
  valueIn name ((i.fullEnvironment inherited).entries.filterMap environmentLine)

end Invocation

inductive ExitStatus where
  | code (n : Nat)
  | signal (n : Nat)
deriving DecidableEq, Inhabited

namespace ExitStatus

def isSuccess (s : ExitStatus) : Bool := s = .code 0

def signalName : Nat → String
  | 1 => " (SIGHUP)"
  | 2 => " (SIGINT)"
  | 3 => " (SIGQUIT)"
  | 4 => " (SIGILL)"
  | 5 => " (SIGTRAP)"
  | 6 => " (SIGABRT)"
  | 7 => " (SIGBUS)"
  | 8 => " (SIGFPE)"
  | 9 => " (SIGKILL)"
  | 10 => " (SIGUSR1)"
  | 11 => " (SIGSEGV)"
  | 12 => " (SIGUSR2)"
  | 13 => " (SIGPIPE)"
  | 14 => " (SIGALRM)"
  | 15 => " (SIGTERM)"
  | _ => ""

def message : ExitStatus → String
  | code n => "exit status: " ++ toString n
  | signal n => "signal: " ++ toString n ++ signalName n

end ExitStatus

structure Finished where
  status : ExitStatus
  output : Bytes
  errors : Bytes
deriving Inhabited

end Provision.Host
