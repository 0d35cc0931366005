import Provision.Json.Shape
import Provision.Text.Utf8

/-!
# Reading JSON

A document is read once, into a tree that also records where reading had to stop: `broken`
stands for a value that could not be read, and an array or object that did not end properly
is not `closed`. What a tree means is for the decoders to say. They meet the values in the
order in which they are written, so a wrong value is reported before a fault that follows it,
and a value that nobody asks for need only be well formed.
-/

namespace Provision.Json

abbrev Symbol : Type := Option Char

inductive Key where
  | text (s : String)
  | unspellable
  /-- No string; an object is never read past it. -/
  | other (found : Option Shape)

/-- A string is `none` if it spells no text, a number if it is too large; both are well
formed all the same. -/
inductive Document where
  | null
  | bool (b : Bool)
  | number (n : Option Number)
  | string (s : Option String)
  | array (items : List Document) (closed : Bool)
  | object (members : List (Key × Document)) (closed : Bool)
  | broken
deriving Inhabited

def Key.ofString : Option String → Key
  | some s => .text s
  | none => .unspellable

namespace Document

def shape? : Document → Option Shape
  | null => some .null
  | bool b => some (.bool b)
  | number n => n.map .number
  | string s => s.map .string
  | array _ _ => some .array
  | object _ _ => some .object
  | broken => none

def isSpace (s : Symbol) : Bool :=
  s = some ' ' || s = some '\n' || s = some '\t' || s = some '\r'

def skipSpace (l : List Symbol) : List Symbol :=
  l.dropWhile isSpace

def isDigit (s : Symbol) : Bool :=
  match s with
  | some c => '0' ≤ c && c ≤ '9'
  | none => false

def digits (l : List Symbol) : List Char × List Symbol :=
  ((l.takeWhile isDigit).filterMap id, l.dropWhile isDigit)

def wholePart (l : List Symbol) : Option (List Char × List Symbol) :=
  match digits l with
  | ([], _) => none
  | ('0' :: _ :: _, _) => none
  | (ds, rest) => some (ds, rest)

def fractionPart : List Symbol → Option (Option (List Char) × List Symbol)
  | some '.' :: l =>
    match digits l with
    | ([], _) => none
    | (ds, rest) => some (some ds, rest)
  | l => some (none, l)

def exponentDigits (minus : Bool) (l : List Symbol) : Option (Option Int × List Symbol) :=
  match digits l with
  | ([], _) => none
  | (ds, rest) =>
    let n : Int := digitsValue ds
    some (some (if minus then -n else n), rest)

def exponentPart : List Symbol → Option (Option Int × List Symbol)
  | some 'e' :: some '-' :: l => exponentDigits true l
  | some 'e' :: some '+' :: l => exponentDigits false l
  | some 'e' :: l => exponentDigits false l
  | some 'E' :: some '-' :: l => exponentDigits true l
  | some 'E' :: some '+' :: l => exponentDigits false l
  | some 'E' :: l => exponentDigits false l
  | l => some (none, l)

def literal (minus : Bool) (l : List Symbol) : Option (Literal × List Symbol) := do
  let (whole, l) ← wholePart l
  let (fraction, l) ← fractionPart l
  let (exponent, l) ← exponentPart l
  return (⟨minus, whole, fraction, exponent⟩, l)

def readNumber (minus : Bool) (l : List Symbol) : Document × List Symbol :=
  match literal minus l with
  | some (lit, rest) => (number (Number.ofLiteral lit), rest)
  | none => (broken, [])

def hexValue (s : Symbol) : Option Nat :=
  match s with
  | some c =>
    if '0' ≤ c ∧ c ≤ '9' then some (c.toNat - '0'.toNat)
    else if 'a' ≤ c ∧ c ≤ 'f' then some (c.toNat - 'a'.toNat + 10)
    else if 'A' ≤ c ∧ c ≤ 'F' then some (c.toNat - 'A'.toNat + 10)
    else none
  | none => none

def hexUnit (a b c d : Symbol) : Option Nat := do
  return (((← hexValue a) * 16 + (← hexValue b)) * 16 + (← hexValue c)) * 16 + (← hexValue d)

inductive Piece where
  | symbol (s : Symbol)
  | unit (n : Nat)

def escaped (s : Symbol) : Option Char :=
  match s with
  | some '"' => some '"'
  | some '\\' => some '\\'
  | some '/' => some '/'
  | some 'b' => some '\x08'
  | some 'f' => some '\x0c'
  | some 'n' => some '\n'
  | some 'r' => some '\r'
  | some 't' => some '\t'
  | _ => none

def isControl (s : Symbol) : Bool :=
  match s with
  | some c => c.toNat < 0x20
  | none => false

def pieces : List Symbol → Option (List Piece × List Symbol)
  | [] => none
  | some '"' :: l => some ([], l)
  | some '\\' :: some 'u' :: a :: b :: c :: d :: l => do
    let n ← hexUnit a b c d
    let (ps, rest) ← pieces l
    return (.unit n :: ps, rest)
  | some '\\' :: s :: l => do
    let c ← escaped s
    let (ps, rest) ← pieces l
    return (.symbol (some c) :: ps, rest)
  | s :: l =>
    if isControl s || s = some '\\' then none
    else do
      let (ps, rest) ← pieces l
      return (.symbol s :: ps, rest)

def isLeading (n : Nat) : Bool := 0xD800 ≤ n && n < 0xDC00

def isTrailing (n : Nat) : Bool := 0xDC00 ≤ n && n < 0xE000

/-- Joins the pieces of a string. A leading surrogate must be followed by a trailing one, and
no other surrogate or unreadable symbol may occur. -/
def spell : List Piece → Option (List Char)
  | [] => some []
  | .symbol none :: _ => none
  | .symbol (some c) :: ps => (spell ps).map (c :: ·)
  | [.unit n] =>
    if isLeading n || isTrailing n then none else some [Char.ofNat n]
  | .unit n :: .unit m :: ps =>
    if isLeading n then
      if isTrailing m then
        (spell ps).map (Char.ofNat (0x10000 + (n - 0xD800) * 0x400 + (m - 0xDC00)) :: ·)
      else none
    else if isTrailing n then none
    else (spell (.unit m :: ps)).map (Char.ofNat n :: ·)
  | .unit n :: .symbol s :: ps =>
    if isLeading n || isTrailing n then none
    else (spell (.symbol s :: ps)).map (Char.ofNat n :: ·)

def readString (l : List Symbol) : Option (Option String × List Symbol) :=
  (pieces l).map fun (ps, rest) => ((spell ps).map String.ofList, rest)

def word (expected : List Char) (l : List Symbol) : Option (List Symbol) :=
  if (expected.map some).isPrefixOf l then some (l.drop expected.length) else none

def readWord (expected : List Char) (d : Document) (l : List Symbol) : Document × List Symbol :=
  match word expected l with
  | some rest => (d, rest)
  | none => (broken, [])

mutual

/-- Reads a value; every nested call has less input, which `fuel` bounds. -/
def readValue : Nat → List Symbol → Document × List Symbol
  | 0, _ => (broken, [])
  | fuel + 1, l =>
    match skipSpace l with
    | some 'n' :: l => readWord ['u', 'l', 'l'] null l
    | some 't' :: l => readWord ['r', 'u', 'e'] (bool true) l
    | some 'f' :: l => readWord ['a', 'l', 's', 'e'] (bool false) l
    | some '"' :: l =>
      match readString l with
      | some (s, rest) => (string s, rest)
      | none => (broken, [])
    | some '[' :: l =>
      match skipSpace l with
      | some ']' :: rest => (array [] true, rest)
      | l =>
        let (items, closed, rest) := readItems fuel l
        (array items closed, rest)
    | some '\x7b' :: l =>
      match skipSpace l with
      | some '\x7d' :: rest => (object [] true, rest)
      | l =>
        let (members, closed, rest) := readMembers fuel l
        (object members closed, rest)
    | some '-' :: l => readNumber true l
    | s :: l => if isDigit s then readNumber false (s :: l) else (broken, [])
    | [] => (broken, [])

def readItems : Nat → List Symbol → List Document × Bool × List Symbol
  | 0, _ => ([], false, [])
  | fuel + 1, l =>
    let (item, rest) := readValue fuel l
    match skipSpace rest with
    | some ',' :: rest =>
      let (items, closed, rest) := readItems fuel rest
      (item :: items, closed, rest)
    | some ']' :: rest => ([item], true, rest)
    | _ => ([item], false, [])

def readMembers : Nat → List Symbol → List (Key × Document) × Bool × List Symbol
  | 0, _ => ([], false, [])
  | fuel + 1, l =>
    match skipSpace l with
    | some '"' :: l =>
      match readString l with
      | none => ([], false, [])
      | some (s, rest) =>
        let key := Key.ofString s
        match skipSpace rest with
        | some ':' :: rest =>
          let (item, rest) := readValue fuel rest
          match skipSpace rest with
          | some ',' :: rest =>
            let (members, closed, rest) := readMembers fuel rest
            ((key, item) :: members, closed, rest)
          | some '\x7d' :: rest => ([(key, item)], true, rest)
          | _ => ([(key, item)], false, [])
        | _ => ([(key, broken)], false, [])
    | l => ([(.other (readValue fuel l).1.shape?, broken)], false, [])

end

def read (l : List Symbol) : Document × List Symbol :=
  readValue (l.length + 1) l

end Document

end Provision.Json
