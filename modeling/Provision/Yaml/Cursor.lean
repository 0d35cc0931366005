/-!
# A place in a text

A cursor holds the text that is still to be read, and where in the whole text it starts. Lines
end at a line feed, a carriage return, both in this order, or one of three further break
characters.
-/

namespace Provision.Yaml

def isBreak (c : Char) : Bool :=
  c = '\r' || c = '\n' || c = '\u0085' || c = '\u2028' || c = '\u2029'

def isGap (c : Char) : Bool := c = ' ' || c = '\t'

def isGapOrEnd : Option Char → Bool
  | none => true
  | some c => isGap c || isBreak c

def isWordChar (c : Char) : Bool :=
  ('0' ≤ c && c ≤ '9') || ('A' ≤ c && c ≤ 'Z') || ('a' ≤ c && c ≤ 'z') || c = '_' || c = '-'

def isDigit (c : Char) : Bool := '0' ≤ c && c ≤ '9'

structure Cursor where
  rest : List Char
  index : Nat := 0
  line : Nat := 0
  column : Nat := 0

namespace Cursor

def ahead (c : Cursor) (n : Nat) : Option Char := c.rest[n]?

def atEnd (c : Cursor) : Bool := c.rest.isEmpty

def isAt (c : Cursor) (ch : Char) : Bool := c.ahead 0 = some ch

def atGap (c : Cursor) : Bool :=
  match c.ahead 0 with
  | some ch => isGap ch
  | none => false

def atBreak (c : Cursor) : Bool :=
  match c.ahead 0 with
  | some ch => isBreak ch
  | none => false

def skip (c : Cursor) (n : Nat) : Cursor :=
  { c with rest := c.rest.drop n, index := c.index + n, column := c.column + n }

def takeWhile (c : Cursor) (p : Char → Bool) : List Char × Cursor :=
  let chars := c.rest.takeWhile p
  (chars, c.skip chars.length)

def skipWhile (c : Cursor) (p : Char → Bool) : Cursor := (c.takeWhile p).2

/-- Moves over a break; tells the break that the text keeps in its place. -/
def lineBreak? (c : Cursor) : Option (List Char × Cursor) :=
  let next (rest : List Char) (n : Nat) : Cursor := ⟨rest, c.index + n, c.line + 1, 0⟩
  match c.rest with
  | '\r' :: '\n' :: rest => some (['\n'], next rest 2)
  | ch :: rest =>
    if ch = '\u2028' || ch = '\u2029' then some ([ch], next rest 1)
    else if isBreak ch then some (['\n'], next rest 1)
    else none
  | [] => none

def lineBreak (c : Cursor) : List Char × Cursor := c.lineBreak?.getD ([], c)

def atMarker (c : Cursor) (marker : List Char) : Bool :=
  c.column = 0 && marker.isPrefixOf c.rest && isGapOrEnd (c.ahead marker.length)

def documentStart : List Char := ['-', '-', '-']

def documentEnd : List Char := ['.', '.', '.']

def atDocumentMarker (c : Cursor) : Bool := c.atMarker documentStart || c.atMarker documentEnd

def skipToLineEnd (c : Cursor) : Cursor :=
  let c := c.skipWhile isGap
  if c.isAt '#' then c.skipWhile fun ch => !isBreak ch else c

def finishLine? (c : Cursor) : Option Cursor :=
  let c := c.skipToLineEnd
  if c.atEnd then some c else (c.lineBreak?).map (·.2)

end Cursor

end Provision.Yaml
