import Provision.Text.Utf8
import Provision.Yaml.Scalar

/-!
# Tokens

A text is a row of tokens. Tokens for the start and end of block collections come from the
indentation; the token that makes a node a key is put before the node once its colon is met,
which must be on the same line and within 1024 characters. Outside of brackets a node in the
column of its collection must turn out to be a key.
-/

namespace Provision.Yaml

inductive Token where
  | endOfStream
  | version (major minor : Nat)
  | handle (name : List Char) (meaning : Bytes)
  | documentStart
  | documentEnd
  | blockSequence
  | blockMapping
  | blockEnd
  | flowSequence
  | flowSequenceEnd
  | flowMapping
  | flowMappingEnd
  | blockEntry
  | flowEntry
  | key
  | value
  | alias (name : List Char)
  | anchor (name : List Char)
  | tag (handle : List Char) (suffix : Bytes)
  | scalar (text : List Char) (plain : Bool)
deriving DecidableEq, Inhabited

namespace Token

def isTagChar (verbatim : Bool) (c : Char) : Bool :=
  isWordChar c || c = ';' || c = '/' || c = '?' || c = ':' || c = '@' || c = '&' || c = '=' ||
    c = '+' || c = '$' || c = '.' || c = '!' || c = '~' || c = '*' || c = '\'' || c = '(' ||
    c = ')' || (verbatim && (c = ',' || c = '[' || c = ']'))

def byteWidth (n : Nat) : Option Nat :=
  if n < 0x80 then some 1
  else if n < 0xC0 then none
  else if n < 0xE0 then some 2
  else if n < 0xF0 then some 3
  else if n < 0xF8 then some 4
  else none

def escapedByte (c : Cursor) : Option Nat :=
  if c.isAt '%' then Scalar.hexNumber 2 (c.skip 1) else none

def followingBytes : Nat → Cursor → Option (Bytes × Cursor)
  | 0, c => some ([], c)
  | n + 1, c => do
    let b ← escapedByte c
    if b < 0x80 || 0xC0 ≤ b then none
    let (bs, c) ← followingBytes n (c.skip 3)
    return (UInt8.ofNat b :: bs, c)

def escapedBytes (c : Cursor) : Option (Bytes × Cursor) := do
  let b ← escapedByte c
  let width ← byteWidth b
  let (bs, c) ← followingBytes (width - 1) (c.skip 3)
  return (UInt8.ofNat b :: bs, c)

def tagChars (verbatim : Bool) : Nat → Bytes → Cursor → Option (Bytes × Cursor)
  | 0, _, _ => none
  | fuel + 1, acc, c =>
    match c.ahead 0 with
    | none => some (acc, c)
    | some ch =>
      if ch = '%' then
        match escapedBytes c with
        | none => none
        | some (bs, c) => tagChars verbatim fuel (acc ++ bs) c
      else if isTagChar verbatim ch then
        tagChars verbatim fuel (acc ++ [UInt8.ofNat ch.toNat]) (c.skip 1)
      else some (acc, c)

def tagText (verbatim : Bool) (start : List Char) (c : Cursor) : Option (Bytes × Cursor) := do
  let (bs, after) ← tagChars verbatim (c.rest.length + 1) [] c
  if start.isEmpty && after.index = c.index then none
  return ((start.drop 1).map (fun ch => UInt8.ofNat ch.toNat) ++ bs, after)

def tagHandle (c : Cursor) : Option (List Char × Cursor) :=
  if c.isAt '!' then
    let (word, c) := (c.skip 1).takeWhile isWordChar
    if c.isAt '!' then some ('!' :: word ++ ['!'], c.skip 1) else some ('!' :: word, c)
  else none

def isClosedHandle (h : List Char) : Bool := 1 < h.length && h.getLast? = some '!'

def readTag (c : Cursor) : Option (Token × Cursor) :=
  if c.ahead 1 = some '<' then do
    let (suffix, c) ← tagText true [] (c.skip 2)
    if c.isAt '>' then return (.tag [] suffix, c.skip 1) else none
  else do
    let (h, c) ← tagHandle c
    if isClosedHandle h then
      let (suffix, c) ← tagText false [] c
      return (.tag h suffix, c)
    else
      let (suffix, c) ← tagText false h c
      if suffix.isEmpty then return (.tag [] (Text.Utf8.encode "!"), c)
      else return (.tag ['!'] suffix, c)

def tag? (flow : Bool) (c : Cursor) : Option (Token × Cursor) := do
  let (t, c) ← readTag c
  if (flow && c.isAt ',') || isGapOrEnd (c.ahead 0) then return (t, c) else none

def endsName (o : Option Char) : Bool :=
  isGapOrEnd o ||
    o.any fun c => c = '?' || c = ':' || c = ',' || c = ']' || c = '\x7d' || c = '%' ||
      c = '@' || c = '`'

def name? (c : Cursor) : Option (List Char × Cursor) :=
  let (name, c) := (c.skip 1).takeWhile isWordChar
  if name.isEmpty || !endsName (c.ahead 0) then none else some (name, c)

def versionNumber (c : Cursor) : Option (Nat × Cursor) :=
  let (digits, c) := c.takeWhile isDigit
  if digits.isEmpty || 9 < digits.length then none
  else some (digits.foldl (fun n d => n * 10 + (d.toNat - '0'.toNat)) 0, c)

def versionDirective (c : Cursor) : Option (Token × Cursor) := do
  let (major, c) ← versionNumber (c.skipWhile isGap)
  if !c.isAt '.' then none
  let (minor, c) ← versionNumber (c.skip 1)
  return (.version major minor, c)

def handleDirective (c : Cursor) : Option (Token × Cursor) := do
  let (h, c) ← tagHandle (c.skipWhile isGap)
  if !(h = ['!'] || isClosedHandle h) || !c.atGap then none
  let (meaning, c) ← tagText true [] (c.skipWhile isGap)
  if !isGapOrEnd (c.ahead 0) then none
  return (.handle h meaning, c)

def directive? (c : Cursor) : Option (Token × Cursor) := do
  let (name, c) := (c.skip 1).takeWhile isWordChar
  if !isGapOrEnd (c.ahead 0) then none
  let (t, c) ←
    if name = ['Y', 'A', 'M', 'L'] then versionDirective c
    else if name = ['T', 'A', 'G'] then handleDirective c
    else none
  return (t, ← c.finishLine?)

end Token

/-- A node that may turn out to be a key. -/
structure Candidate where
  /-- Nothing else could stand there. -/
  required : Bool
  /-- How many tokens come before it. -/
  position : Nat
  index : Nat
  line : Nat
  column : Nat

structure Lexer where
  cursor : Cursor
  tokens : Array Token := #[]
  /-- The column of the innermost block collection, or -1. -/
  indent : Int := -1
  outer : List Int := []
  /-- Outside of brackets, and for every pair of brackets that is open: the candidate. -/
  candidates : List (Option Candidate) := [none]
  keyAllowed : Bool := true

namespace Lexer

def inFlow (l : Lexer) : Bool := 1 < l.candidates.length

def push (l : Lexer) (t : Token) : Lexer := { l with tokens := l.tokens.push t }

def allowKey (l : Lexer) (b : Bool) : Lexer := { l with keyAllowed := b }

def mark (l : Lexer) (n : Nat) (t : Token) : Lexer :=
  { l with cursor := l.cursor.skip n, tokens := l.tokens.push t }

def skipSpace : Nat → Lexer → Lexer
  | 0, l => l
  | fuel + 1, l =>
    let c := if l.cursor.column = 0 && l.cursor.isAt '\uFEFF' then l.cursor.skip 1 else l.cursor
    let tabs := l.inFlow || !l.keyAllowed
    let c := c.skipWhile fun ch => ch = ' ' || (tabs && ch = '\t')
    let c := if c.isAt '#' then c.skipWhile fun ch => !isBreak ch else c
    match c.lineBreak? with
    | none => { l with cursor := c }
    | some (_, c) => skipSpace fuel { l with cursor := c, keyAllowed := l.keyAllowed || !l.inFlow }

def dropCandidate (l : Lexer) : Option Lexer :=
  match l.candidates with
  | some k :: rest => if k.required then none else some { l with candidates := none :: rest }
  | _ => some l

def isStale (c : Cursor) (k : Candidate) : Bool := k.line < c.line || k.index + 1024 < c.index

def dropStale (l : Lexer) : Option Lexer := do
  let candidates ← l.candidates.mapM fun
    | some k =>
      if isStale l.cursor k then (if k.required then none else some none) else some (some k)
    | none => some none
  return { l with candidates }

def saveCandidate (l : Lexer) : Option Lexer :=
  if l.keyAllowed then do
    let l ← l.dropCandidate
    let c := l.cursor
    let k : Candidate :=
      ⟨!l.inFlow && l.indent = c.column, l.tokens.size, c.index, c.line, c.column⟩
    return { l with candidates := some k :: l.candidates.drop 1 }
  else some l

def closeBlocks (column : Int) : List Int → Lexer → Lexer
  | [], l => l
  | i :: outer, l =>
    if column < l.indent then
      closeBlocks column outer { l.push .blockEnd with indent := i, outer }
    else l

def unindent (l : Lexer) (column : Int) : Lexer :=
  if l.inFlow then l else closeBlocks column l.outer l

/-- Opens a block collection if the column is deeper; its token goes to the given position. -/
def openBlock (l : Lexer) (column : Nat) (position : Nat) (t : Token) : Lexer :=
  if !l.inFlow && l.indent < column then
    { l with
      tokens := l.tokens.insertIdxIfInBounds position t
      indent := column
      outer := l.indent :: l.outer }
  else l

def openHere (l : Lexer) (t : Token) : Lexer :=
  l.openBlock l.cursor.column l.tokens.size t

def finish (l : Lexer) : Option Lexer := do
  let l ← (l.unindent (-1)).dropCandidate
  return l.push .endOfStream

def directive (l : Lexer) : Option Lexer := do
  let l ← (l.unindent (-1)).dropCandidate
  let (t, cursor) ← Token.directive? l.cursor
  return { (l.push t) with cursor, keyAllowed := false }

def documentMarker (l : Lexer) (t : Token) : Option Lexer := do
  let l ← (l.unindent (-1)).dropCandidate
  return (l.mark 3 t).allowKey false

def flowStart (l : Lexer) (t : Token) : Option Lexer := do
  let l ← l.saveCandidate
  return { (l.mark 1 t) with candidates := none :: l.candidates, keyAllowed := true }

def flowEnd (l : Lexer) (t : Token) : Option Lexer := do
  let l ← l.dropCandidate
  let candidates := if l.inFlow then l.candidates.drop 1 else l.candidates
  return { (l.mark 1 t) with candidates, keyAllowed := false }

def flowEntry (l : Lexer) : Option Lexer := do
  let l ← l.dropCandidate
  return (l.mark 1 .flowEntry).allowKey true

def blockEntry (l : Lexer) : Option Lexer := do
  if !l.inFlow && !l.keyAllowed then none
  let l ← (l.openHere .blockSequence).dropCandidate
  return (l.mark 1 .blockEntry).allowKey true

def key (l : Lexer) : Option Lexer := do
  if !l.inFlow && !l.keyAllowed then none
  let l ← (l.openHere .blockMapping).dropCandidate
  return (l.mark 1 .key).allowKey (!l.inFlow)

def value (l : Lexer) : Option Lexer := do
  match l.candidates with
  | some k :: rest =>
    let l := { l with
      tokens := l.tokens.insertIdxIfInBounds k.position .key
      candidates := none :: rest }
    return ((l.openBlock k.column k.position .blockMapping).mark 1 .value).allowKey false
  | _ =>
    if !l.inFlow && !l.keyAllowed then none
    return ((l.openHere .blockMapping).mark 1 .value).allowKey (!l.inFlow)

def node (l : Lexer) (read : Lexer → Option (Token × Cursor)) : Option Lexer := do
  let l ← l.saveCandidate
  let (t, cursor) ← read l
  return { (l.push t) with cursor, keyAllowed := false }

def named (l : Lexer) (make : List Char → Token) : Option Lexer :=
  l.node fun l => (Token.name? l.cursor).map fun (name, c) => (make name, c)

def quoted (l : Lexer) (single : Bool) : Option Lexer :=
  l.node fun l => (Scalar.quoted single l.cursor).map fun (text, c) => (.scalar text false, c)

def plain (l : Lexer) : Option Lexer := do
  let l ← l.saveCandidate
  let (text, broken, cursor) ← Scalar.plain l.inFlow l.indent l.cursor
  return { (l.push (.scalar text true)) with cursor, keyAllowed := broken }

def block (l : Lexer) (literal : Bool) : Option Lexer := do
  let l ← l.dropCandidate
  let (text, cursor) ← Scalar.block literal l.indent l.cursor
  return { (l.push (.scalar text false)) with cursor, keyAllowed := true }

def isIndicator (c : Char) : Bool :=
  c = '-' || c = '?' || c = ':' || c = ',' || c = '[' || c = ']' || c = '\x7b' || c = '\x7d' ||
    c = '#' || c = '&' || c = '*' || c = '!' || c = '|' || c = '>' || c = '\'' || c = '"' ||
    c = '%' || c = '@' || c = '`'

def startsPlain (flow : Bool) (ch : Char) (second : Option Char) : Bool :=
  !(isGapOrEnd (some ch) || isIndicator ch) ||
    (ch = '-' && !second.any isGap) ||
    (!flow && (ch = '?' || ch = ':') && !isGapOrEnd second)

def next (l : Lexer) (ch : Char) : Option Lexer :=
  let c := l.cursor
  let gapAfter := isGapOrEnd (c.ahead 1)
  if c.column = 0 && ch = '%' then l.directive
  else if c.atMarker Cursor.documentStart then l.documentMarker .documentStart
  else if c.atMarker Cursor.documentEnd then l.documentMarker .documentEnd
  else if ch = '[' then l.flowStart .flowSequence
  else if ch = '\x7b' then l.flowStart .flowMapping
  else if ch = ']' then l.flowEnd .flowSequenceEnd
  else if ch = '\x7d' then l.flowEnd .flowMappingEnd
  else if ch = ',' then l.flowEntry
  else if ch = '-' && gapAfter then l.blockEntry
  else if ch = '?' && (l.inFlow || gapAfter) then l.key
  else if ch = ':' && (l.inFlow || gapAfter) then l.value
  else if ch = '*' then l.named .alias
  else if ch = '&' then l.named .anchor
  else if ch = '!' then l.node fun l => Token.tag? l.inFlow l.cursor
  else if ch = '|' && !l.inFlow then l.block true
  else if ch = '>' && !l.inFlow then l.block false
  else if ch = '\'' then l.quoted true
  else if ch = '"' then l.quoted false
  else if startsPlain l.inFlow ch (c.ahead 1) then l.plain
  else none

def run : Nat → Lexer → Option (Array Token)
  | 0, _ => none
  | fuel + 1, l => do
    let l ← (l.skipSpace (l.cursor.rest.length + 1)).dropStale
    let l := l.unindent l.cursor.column
    match l.cursor.ahead 0 with
    | none => return (← l.finish).tokens
    | some ch => run fuel (← l.next ch)

end Lexer

def isAllowed (c : Char) : Bool :=
  let n := c.toNat
  n = 0x09 || n = 0x0A || n = 0x0D || (0x20 ≤ n && n ≤ 0x7E) || n = 0x85 ||
    (0xA0 ≤ n && n ≤ 0xD7FF) || (0xE000 ≤ n && n ≤ 0xFFFD) || 0x10000 ≤ n

/-- The tokens of a text. A byte order mark that comes first is a character like any other. -/
def tokens? (text : String) : Option (List Token) := do
  let chars := text.toList
  if !chars.all isAllowed then none
  let tokens ← Lexer.run (chars.length + 2) { cursor := { rest := chars } }
  return tokens.toList

end Provision.Yaml
