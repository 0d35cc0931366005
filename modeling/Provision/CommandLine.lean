import Provision.Pipeline.Command
import Provision.Text.Similarity

/-!
# The command line

A command line is a command and a directory. Anything else is answered with help on the output,
or with a usage error and exit code 2.
-/

namespace Provision.CommandLine

open Provision.Host

def programName : String := "terrace"

inductive Verb where
  | get
  | put
deriving DecidableEq

namespace Verb

def name : Verb → String
  | get => "get"
  | put => "put"

def about : Verb → String
  | get => "Fetch the latest state and outputs of an environment"
  | put => "Apply or destroy an environment"

def aboutDirectory : Verb → String
  | get => "Directory receiving `name`, `metadata` and optionally the state file"
  | put => "Directory holding the step's inputs"

def ofName? (s : String) : Option Verb :=
  if s = "get" then some get else if s = "put" then some put else none

def usage (v : Verb) : String := "Usage: " ++ programName ++ " " ++ v.name ++ " <DIR>"

def help (v : Verb) : String :=
  v.about ++ "\n\n" ++ v.usage ++ "\n\nArguments:\n  <DIR>  " ++ v.aboutDirectory ++
    "\n\nOptions:\n  -h, --help  Print help\n"

def command : Verb → String → Pipeline.Command Unit
  | get => Pipeline.Command.get
  | put => Pipeline.Command.put

end Verb

def usage : String := "Usage: " ++ programName ++ " <COMMAND>"

def aboutHelp : String := "Print this message or the help of the given subcommand(s)"

def help : String :=
  "Pipeline resource for terraform-managed environments\n\n" ++ usage ++
    "\n\nCommands:\n  get   " ++ Verb.get.about ++ "\n  put   " ++ Verb.put.about ++
    "\n  help  " ++ aboutHelp ++ "\n\nOptions:\n  -h, --help  Print help\n"

inductive Request where
  | run (v : Verb) (directory : String)
  | showHelp (text : String)
  /-- The help, as an answer to a command line without any command. -/
  | noCommand
  | misuse (problem : String) (hints : List String) (usage : Option String)

namespace Request

def report (problem : String) (hints : List String) (usage : Option String) : String :=
  "error: " ++ problem ++ "\n\n" ++
    (if hints.isEmpty then "" else String.join (hints.map fun h => "  tip: " ++ h ++ "\n") ++ "\n") ++
    (match usage with
     | some text => text ++ "\n\n"
     | none => "") ++
    "For more information, try '--help'.\n"

def isOption (argument : String) : Bool :=
  match argument.toList with
  | '-' :: _ :: _ => true
  | _ => false

def isHelp (argument : String) : Bool :=
  argument = "--help" || (argument.toList.take 2 = ['-', 'h'] && argument.toList.length = 2)

/-- The option that an argument names: all of a long one, or the first letter of short ones. -/
def optionName (argument : String) : String :=
  match argument.toList with
  | '-' :: '-' :: rest => String.ofList ('-' :: '-' :: rest.takeWhile (· ≠ '='))
  | cs => String.ofList (cs.take 2)

def unexpected (argument : String) (hints : List String) (usage : String) : Request :=
  .misuse ("unexpected argument '" ++ argument ++ "' found") hints (some usage)

def ofArguments (v : Verb) (plain : Bool) : Option String → List String → Request
  | none, [] =>
    .misuse "the following required arguments were not provided:\n  <DIR>" [] (some v.usage)
  | some "", [] => .misuse "a value is required for '<DIR>' but none was supplied" [] none
  | some directory, [] => .run v directory
  | directory, argument :: rest =>
    if !plain && argument = "--" then ofArguments v true directory rest
    else if !plain && isHelp argument then .showHelp v.help
    else if !plain && isOption argument then
      let name := optionName argument
      unexpected name ["to pass '" ++ name ++ "' as a value, use '-- " ++ name ++ "'"] v.usage
    else if directory.isSome then unexpected argument [] v.usage
    else ofArguments v plain (some argument) rest

def commandNames : List String := ["get", "put", "help"]

def unknownCommand (name : String) : Request :=
  let hints :=
    match commandNames.filter (Text.Similarity.isSimilar name) with
    | [] => []
    | [other] => ["a similar subcommand exists: '" ++ other ++ "'"]
    | others =>
      ["some similar subcommands exist: " ++
        ", ".intercalate (others.map fun n => "'" ++ n ++ "'")]
  .misuse ("unrecognized subcommand '" ++ name ++ "'") hints (some usage)

def ofHelp : List String → Request
  | [] => .showHelp help
  | name :: _ =>
    match Verb.ofName? name with
    | some v => .showHelp v.help
    | none =>
      if name = "help" then
        .showHelp (aboutHelp ++ "\n\nUsage: " ++ programName ++ " help [COMMAND]..." ++
          "\n\nArguments:\n  [COMMAND]...  Print help for the subcommand(s)\n")
      else .misuse ("unrecognized subcommand '" ++ name ++ "'") [] (some usage)

def ofCommandLine : List String → Request
  | [] => .noCommand
  | argument :: rest =>
    match Verb.ofName? argument with
    | some v => ofArguments v false none rest
    | none =>
      if argument = "help" then ofHelp rest
      else if isHelp argument then .showHelp help
      else if isOption argument && argument ≠ "--" then unexpected (optionName argument) [] usage
      else unknownCommand argument

end Request

def run (arguments : List String) : HostProgram Nat := do
  match Request.ofCommandLine arguments with
  | .run v directory => Pipeline.Command.exitCode (v.command directory)
  | .showHelp text =>
    printOutput text
    return 0
  | .noCommand =>
    printError help
    return 2
  | .misuse problem hints usage =>
    printError (Request.report problem hints usage)
    return 2

end Provision.CommandLine
