/-!
# Faults of the machine

Why a file operation or the start of a process failed, and the operating system's words for
it.
-/

namespace Provision.Host

inductive Fault where
  | notFound
  | denied
  | alreadyExists
  | notADirectory
  | isADirectory
  | nameTooLong
  /-- A file read as text that is not UTF-8. -/
  | notText
  | nulInPath
  | nulInArgument
  | other (text : String)
deriving DecidableEq, Inhabited

def Fault.message : Fault → String
  | notFound => "No such file or directory (os error 2)"
  | denied => "Permission denied (os error 13)"
  | alreadyExists => "File exists (os error 17)"
  | notADirectory => "Not a directory (os error 20)"
  | isADirectory => "Is a directory (os error 21)"
  | nameTooLong => "File name too long (os error 36)"
  | notText => "stream did not contain valid UTF-8"
  | nulInPath => "file name contained an unexpected NUL byte"
  | nulInArgument => "nul byte found in provided data"
  | other text => text

end Provision.Host
