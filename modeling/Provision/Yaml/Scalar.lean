import Provision.Yaml.Cursor

/-!
# Scalars in a text

Plain and quoted scalars may run over several lines: a single break between two lines is read
as a space, further breaks are kept. Block scalars keep their lines, or fold them the same way
where neither line starts with a blank. Every function tells the text of the scalar and the
place after it, or `none` where the text is not well formed.
-/

namespace Provision.Yaml.Scalar

/-- Blanks and breaks between two words of a scalar. -/
structure Gap where
  blanks : List Char := []
  broken : Bool := false
  first : List Char := []
  more : List Char := []

def fold (first more : List Char) : List Char :=
  if first = ['\n'] then (if more.isEmpty then [' '] else more) else first ++ more

def Gap.text (g : Gap) : List Char := if g.broken then fold g.first g.more else g.blanks

def readGap (indent : Option Int) : Nat → Gap → Cursor → Option (Gap × Cursor)
  | 0, _, _ => none
  | fuel + 1, g, c =>
    match c.ahead 0 with
    | none => some (g, c)
    | some ch =>
      if isGap ch then
        if g.broken then
          if ch = '\t' && indent.any (fun n => (c.column : Int) < n) then none
          else readGap indent fuel g (c.skip 1)
        else readGap indent fuel { g with blanks := g.blanks ++ [ch] } (c.skip 1)
      else
        match c.lineBreak? with
        | none => some (g, c)
        | some (b, c) =>
          if g.broken then readGap indent fuel { g with more := g.more ++ b } c
          else readGap indent fuel { broken := true, first := b } c

def isFlowIndicator (c : Char) : Bool :=
  c = ',' || c = '[' || c = ']' || c = '\x7b' || c = '\x7d'

def plainWord (flow : Bool) : Nat → List Char → Cursor → Option (List Char × Cursor)
  | 0, _, _ => none
  | fuel + 1, acc, c =>
    match c.ahead 0 with
    | none => some (acc.reverse, c)
    | some ch =>
      if isGapOrEnd (some ch) then some (acc.reverse, c)
      else if flow && ch = ':' && (c.ahead 1).any (fun d => isFlowIndicator d || d = '?') then none
      else if ch = ':' && isGapOrEnd (c.ahead 1) then some (acc.reverse, c)
      else if flow && isFlowIndicator ch then some (acc.reverse, c)
      else plainWord flow fuel (ch :: acc) (c.skip 1)

def plainFrom (flow : Bool) (indent : Int) :
    Nat → List Char → Gap → Cursor → Option (List Char × Bool × Cursor)
  | 0, _, _, _ => none
  | fuel + 1, text, gap, c => do
    if c.atDocumentMarker || c.isAt '#' then return (text, gap.broken, c)
    let (word, c) ← plainWord flow fuel [] c
    let (text, gap) := if word.isEmpty then (text, gap) else (text ++ gap.text ++ word, {})
    if !(c.atGap || c.atBreak) then return (text, gap.broken, c)
    let (gap, c) ← readGap (some indent) fuel gap c
    if !flow && (c.column : Int) < indent then return (text, gap.broken, c)
    plainFrom flow indent fuel text gap c

def plain (flow : Bool) (parentIndent : Int) (c : Cursor) :
    Option (List Char × Bool × Cursor) :=
  plainFrom flow (parentIndent + 1) (c.rest.length + 2) [] {} c

def hexValue (c : Char) : Option Nat :=
  if '0' ≤ c ∧ c ≤ '9' then some (c.toNat - '0'.toNat)
  else if 'a' ≤ c ∧ c ≤ 'f' then some (c.toNat - 'a'.toNat + 10)
  else if 'A' ≤ c ∧ c ≤ 'F' then some (c.toNat - 'A'.toNat + 10)
  else none

def hexNumber (n : Nat) (c : Cursor) : Option Nat := do
  let chars := c.rest.take n
  if chars.length < n then none
  let digits ← chars.mapM hexValue
  return digits.foldl (fun acc d => acc * 16 + d) 0

def escaped : Char → Option Char
  | '0' => some '\x00'
  | 'a' => some '\x07'
  | 'b' => some '\x08'
  | 't' => some '\t'
  | '\t' => some '\t'
  | 'n' => some '\n'
  | 'v' => some '\x0b'
  | 'f' => some '\x0c'
  | 'r' => some '\r'
  | 'e' => some '\x1b'
  | ' ' => some ' '
  | '"' => some '"'
  | '/' => some '/'
  | '\\' => some '\\'
  | 'N' => some '\u0085'
  | '_' => some '\u00a0'
  | 'L' => some '\u2028'
  | 'P' => some '\u2029'
  | _ => none

def escapeWidth : Char → Option Nat
  | 'x' => some 2
  | 'u' => some 4
  | 'U' => some 8
  | _ => none

def readEscape (c : Cursor) : Option (Char × Cursor) := do
  let letter ← c.ahead 1
  match escapeWidth letter with
  | none => return (← escaped letter, c.skip 2)
  | some width =>
    let n ← hexNumber width (c.skip 2)
    if n.isValidChar then return (Char.ofNat n, c.skip (2 + width)) else none

def quoteMark (single : Bool) : Char := if single then '\'' else '"'

def quotedWord (single : Bool) : Nat → List Char → Cursor → Option (List Char × Bool × Cursor)
  | 0, _, _ => none
  | fuel + 1, acc, c =>
    match c.ahead 0 with
    | none => some (acc.reverse, false, c)
    | some ch =>
      if isGapOrEnd (some ch) then some (acc.reverse, false, c)
      else if single && ch = '\'' && c.ahead 1 = some '\'' then
        quotedWord single fuel ('\'' :: acc) (c.skip 2)
      else if ch = quoteMark single then some (acc.reverse, false, c)
      else if !single && ch = '\\' then
        match (c.skip 1).lineBreak? with
        | some (_, c) => some (acc.reverse, true, c)
        | none =>
          match readEscape c with
          | none => none
          | some (e, c) => quotedWord single fuel (e :: acc) c
      else quotedWord single fuel (ch :: acc) (c.skip 1)

def quotedFrom (single : Bool) : Nat → List Char → Cursor → Option (List Char × Cursor)
  | 0, _, _ => none
  | fuel + 1, text, c => do
    if c.atDocumentMarker || c.atEnd then none
    let (word, broken, c) ← quotedWord single fuel [] c
    let text := text ++ word
    if c.isAt (quoteMark single) then return (text, c.skip 1)
    let (gap, c) ← readGap none fuel { broken } c
    quotedFrom single fuel (text ++ gap.text) c

def quoted (single : Bool) (c : Cursor) : Option (List Char × Cursor) :=
  quotedFrom single (c.rest.length + 2) [] (c.skip 1)

inductive Chomping where
  | strip
  | clip
  | keep
deriving DecidableEq

def chompingOf? : Option Char → Option Chomping
  | some '+' => some .keep
  | some '-' => some .strip
  | _ => none

def increment? (o : Option Char) : Option (Option Nat) :=
  match o with
  | some ch =>
    if isDigit ch then
      if ch = '0' then none else some (some (ch.toNat - '0'.toNat))
    else some none
  | none => some none

def header (c : Cursor) : Option (Chomping × Option Nat × Cursor) := do
  match chompingOf? (c.ahead 0) with
  | some chomping =>
    let increment ← increment? (c.ahead 1)
    return (chomping, increment, c.skip (if increment.isSome then 2 else 1))
  | none =>
    match ← increment? (c.ahead 0) with
    | none => return (.clip, none, c)
    | some n =>
      match chompingOf? (c.ahead 1) with
      | some chomping => return (chomping, some n, c.skip 2)
      | none => return (.clip, some n, c.skip 1)

/-- Passes over indentation and empty lines; `indent` zero stands for an unknown one. Tells
the widest indentation met, the breaks, and where the next line's text starts. -/
def emptyLines (indent : Nat) :
    Nat → Nat → List Char → Cursor → Option (Nat × List Char × Cursor)
  | 0, _, _, _ => none
  | fuel + 1, widest, breaks, c =>
    let spaces := (c.rest.takeWhile (· = ' ')).length
    let c := c.skip (if indent = 0 then spaces else min spaces (indent - c.column))
    let widest := max widest c.column
    if (indent = 0 || c.column < indent) && c.isAt '\t' then none
    else
      match c.lineBreak? with
      | none => some (widest, breaks, c)
      | some (b, c) => emptyLines indent fuel widest (breaks ++ b) c

/-- A block scalar under way: its text, the break after the last line and those that follow,
and whether the last line starts with a blank. -/
structure Lines where
  text : List Char := []
  first : List Char := []
  more : List Char := []
  blank : Bool := false

def Lines.joint (l : Lines) (literal blank : Bool) : List Char :=
  if !literal && l.first = ['\n'] && !l.blank && !blank then
    (if l.more.isEmpty then [' '] else []) ++ l.more
  else l.first ++ l.more

def blockLines (literal : Bool) (indent : Nat) : Nat → Lines → Cursor → Option (Lines × Cursor)
  | 0, _, _ => none
  | fuel + 1, l, c =>
    if c.column = indent && !c.atEnd then do
      let blank := c.atGap
      let (line, c) := c.takeWhile fun ch => !isBreak ch
      let (first, c) := c.lineBreak
      let (_, more, c) ← emptyLines indent fuel 0 [] c
      blockLines literal indent fuel
        { text := l.text ++ l.joint literal blank ++ line, first, more, blank } c
    else some (l, c)

def Lines.chomp (l : Lines) : Chomping → List Char
  | .strip => l.text
  | .clip => l.text ++ l.first
  | .keep => l.text ++ l.first ++ l.more

def block (literal : Bool) (parentIndent : Int) (c : Cursor) : Option (List Char × Cursor) := do
  let (chomping, increment, c) ← header (c.skip 1)
  let c ← c.finishLine?
  let fuel := c.rest.length + 2
  let given :=
    match increment with
    | some n => (max parentIndent 0).toNat + n
    | none => 0
  let (widest, more, c) ← emptyLines given fuel 0 [] c
  let indent := if given = 0 then max (max widest (parentIndent + 1).toNat) 1 else given
  let (l, c) ← blockLines literal indent fuel { more } c
  return (l.chomp chomping, c)

end Provision.Yaml.Scalar
