import Provision.Json.Number
import Provision.Dict

/-!
# JSON values and their text

An object keeps the order in which it was built: a record lists its fields in declaration
order, and a map lists its keys in ascending order. `compact` writes no space at all; `pretty`
puts every item and member on a line of its own.
-/

namespace Provision.Json

inductive Value where
  | null
  | bool (b : Bool)
  | number (n : Number)
  | string (s : String)
  | array (items : List Value)
  | object (members : List (String × Value))
deriving Inhabited

def Value.ofDict (d : Dict Value) : Value := .object d.entries

def hexDigit (n : Nat) : Char := (Nat.digitChar n)

def writeChar (c : Char) : List Char :=
  if c = '"' then ['\\', '"']
  else if c = '\\' then ['\\', '\\']
  else if c = '\n' then ['\\', 'n']
  else if c = '\r' then ['\\', 'r']
  else if c = '\t' then ['\\', 't']
  else if c = '\x08' then ['\\', 'b']
  else if c = '\x0c' then ['\\', 'f']
  else if c.toNat < 0x20 then
    ['\\', 'u', '0', '0', hexDigit (c.toNat / 16), hexDigit (c.toNat % 16)]
  else [c]

def writeString (s : String) : List Char :=
  '"' :: (s.toList.flatMap writeChar ++ ['"'])

def writeBool (b : Bool) : List Char :=
  if b then ['t', 'r', 'u', 'e'] else ['f', 'a', 'l', 's', 'e']

def writeNull : List Char := ['n', 'u', 'l', 'l']

mutual

def Value.write : Value → List Char
  | .null => writeNull
  | .bool b => writeBool b
  | .number n => n.write
  | .string s => writeString s
  | .array items => '[' :: (writeItems items ++ [']'])
  | .object members => '\x7b' :: (writeMembers members ++ ['\x7d'])

def writeItems : List Value → List Char
  | [] => []
  | [v] => v.write
  | v :: vs => v.write ++ ',' :: writeItems vs

def writeMembers : List (String × Value) → List Char
  | [] => []
  | [(k, v)] => writeString k ++ ':' :: v.write
  | (k, v) :: rest => writeString k ++ ':' :: (v.write ++ ',' :: writeMembers rest)

end

def Value.compact (v : Value) : String := String.ofList v.write

def newline (depth : Nat) : List Char := '\n' :: List.replicate (2 * depth) ' '

mutual

/-- The text with one item or member a line, two blanks deeper at every level. -/
def Value.writePretty (depth : Nat) : Value → List Char
  | .null => writeNull
  | .bool b => writeBool b
  | .number n => n.write
  | .string s => writeString s
  | .array [] => ['[', ']']
  | .array (v :: vs) =>
    '[' :: newline (depth + 1) ++ v.writePretty (depth + 1) ++
      prettyItems (depth + 1) vs ++ newline depth ++ [']']
  | .object [] => ['\x7b', '\x7d']
  | .object ((k, v) :: rest) =>
    '\x7b' :: newline (depth + 1) ++ writeString k ++ [':', ' '] ++ v.writePretty (depth + 1) ++
      prettyMembers (depth + 1) rest ++ newline depth ++ ['\x7d']

def prettyItems (depth : Nat) : List Value → List Char
  | [] => []
  | v :: vs => ',' :: newline depth ++ v.writePretty depth ++ prettyItems depth vs

def prettyMembers (depth : Nat) : List (String × Value) → List Char
  | [] => []
  | (k, v) :: rest =>
    ',' :: newline depth ++ writeString k ++ [':', ' '] ++ v.writePretty depth ++
      prettyMembers depth rest

end

def Value.pretty (v : Value) : String := String.ofList (v.writePretty 0)

def Value.display : Value → String
  | .string s => s
  | v => v.compact

end Provision.Json
