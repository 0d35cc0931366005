import Provision.Yaml.Token

/-!
# Nodes

The tokens of one document form a tree of nodes. A node may carry an anchor, and an alias
stands for the node whose anchor has its name. Anchors are numbered by how many names are
known when they are met; of two nodes with one number the later one counts, also for aliases
that come before it.
-/

namespace Provision.Yaml

inductive Node where
  | alias (number : Nat)
  | scalar (tag : Option Bytes) (text : List Char) (plain : Bool)
  | sequence (tag : Option Bytes) (items : List Node)
  | mapping (tag : Option Bytes) (entries : List (Node × Node))
deriving Inhabited

namespace Node

def absent : Node := .scalar none [] true

structure Builder where
  tokens : List Token
  /-- What the tag handles of the document mean. -/
  handles : List (List Char × Bytes) := []
  numbers : List (List Char × Nat) := []
  /-- For each number a place for its node, the latest first. -/
  places : List (Nat × Nat) := []
  placeCount : Nat := 0
  nodes : List (Nat × Node) := []
  parts : Nat := 0

abbrev Build (α : Type) : Type := StateT Builder Option α

namespace Build

def fail {α : Type} : Build α := fun _ => none

def peek : Build Token := do
  match (← get).tokens with
  | [] => fail
  | t :: _ => return t

def skip : Build Unit := modify fun b => { b with tokens := b.tokens.drop 1 }

def accept (t : Token) : Build Unit := do
  if (← peek) = t then skip else fail

def skipIf (t : Token) : Build Bool := do
  if (← peek) = t then
    skip
    return true
  else return false

def count (n : Nat) : Build Unit := modify fun b => { b with parts := b.parts + n }

def notePlace (name : List Char) : Build Nat := do
  let b ← get
  let number := b.numbers.length
  let known := b.numbers.filter (·.1 ≠ name)
  set { b with
    numbers := (name, number) :: known
    places := (number, b.placeCount) :: b.places
    placeCount := b.placeCount + 1 }
  return b.placeCount

def fillPlace (place : Option Nat) (n : Node) : Build Unit := do
  if let some place := place then
    modify fun b => { b with nodes := (place, n) :: b.nodes }

def numberOf (name : List Char) : Build Nat := do
  match (← get).numbers.find? (·.1 = name) with
  | some e => return e.2
  | none => fail

end Build

open Build

def readAnchor : Build (Option Nat) := do
  match ← peek with
  | .anchor name =>
    skip
    return some (← notePlace name)
  | _ => return none

def resolveTag (handle : List Char) (suffix : Bytes) : Build Bytes := do
  if handle.isEmpty then return suffix
  match (← get).handles.find? (·.1 = handle) with
  | some e => return e.2 ++ suffix
  | none => fail

def readTag : Build (Option Bytes) := do
  match ← peek with
  | .tag handle suffix =>
    skip
    return some (← resolveTag handle suffix)
  | _ => return none

def noTag : Bytes := Text.Utf8.encode "!"

def endsBlockNode (t : Token) : Bool := t = .key || t = .value || t = .blockEnd

def scalarNode (tag : Option Bytes) (text : List Char) (plain : Bool) : Node :=
  if tag = some noTag then .scalar none text plain else .scalar tag text plain

mutual

/-- Reads a node. `block` tells whether block collections may start here, and `entries`
whether a sequence may start with its first entry. -/
def node (block entries : Bool) : Nat → Build Node
  | 0 => fail
  | fuel + 1 => do
    match ← peek with
    | .alias name =>
      skip
      count 1
      return .alias (← numberOf name)
    | _ =>
      let early ← readAnchor
      let tag ← readTag
      let place ← if early.isSome then pure early else readAnchor
      let n ← content block entries (place.isSome || tag.isSome) tag fuel
      fillPlace place n
      return n

def content (block entries marked : Bool) (tag : Option Bytes) : Nat → Build Node
  | 0 => fail
  | fuel + 1 => do
    match ← peek with
    | .scalar text plain =>
      skip
      count 1
      return scalarNode tag text plain
    | .flowSequence =>
      skip
      count 2
      return .sequence tag (← flowItems true fuel)
    | .flowMapping =>
      skip
      count 2
      return .mapping tag (← flowEntries true fuel)
    | t =>
      if entries && t = .blockEntry then
        count 2
        return .sequence tag (← looseItems fuel)
      else if block && t = .blockSequence then
        skip
        count 2
        return .sequence tag (← blockItems fuel)
      else if block && t = .blockMapping then
        skip
        count 2
        return .mapping tag (← blockEntries fuel)
      else if marked then
        count 1
        return .scalar tag [] true
      else fail

def nodeUnless (ends : Token → Bool) (block entries : Bool) : Nat → Build Node
  | 0 => fail
  | fuel + 1 => do
    if ends (← peek) then
      count 1
      return absent
    else node block entries fuel

def blockItems : Nat → Build (List Node)
  | 0 => fail
  | fuel + 1 => do
    if ← skipIf .blockEnd then return []
    accept .blockEntry
    let n ← nodeUnless (fun t => t = .blockEntry || t = .blockEnd) true false fuel
    return n :: (← blockItems fuel)

def looseItems : Nat → Build (List Node)
  | 0 => fail
  | fuel + 1 => do
    if ← skipIf .blockEntry then
      let n ← nodeUnless (fun t => t = .blockEntry || endsBlockNode t) true false fuel
      return n :: (← looseItems fuel)
    else return []

def blockEntries : Nat → Build (List (Node × Node))
  | 0 => fail
  | fuel + 1 => do
    if ← skipIf .blockEnd then return []
    accept .key
    let k ← nodeUnless endsBlockNode true true fuel
    let v ← valueAfter endsBlockNode true fuel
    return (k, v) :: (← blockEntries fuel)

def valueAfter (ends : Token → Bool) (block : Bool) : Nat → Build Node
  | 0 => fail
  | fuel + 1 => do
    if ← skipIf .value then nodeUnless ends block block fuel
    else
      count 1
      return absent

/-- Items in brackets, up to the closing one. A key among them is a mapping of one entry. -/
def flowItems (first : Bool) : Nat → Build (List Node)
  | 0 => fail
  | fuel + 1 => do
    if ← skipIf .flowSequenceEnd then return []
    if !first then accept .flowEntry
    if ← skipIf .flowSequenceEnd then return []
    let ends := fun t => t = .flowEntry || t = .flowSequenceEnd
    if ← skipIf .key then
      count 2
      let t ← peek
      let k ← nodeUnless (fun t => t = .value || ends t) false false fuel
      if t = .value || ends t then skip
      let v ← valueAfter ends false fuel
      return .mapping none [(k, v)] :: (← flowItems false fuel)
    else
      let n ← node false false fuel
      return n :: (← flowItems false fuel)

def flowEntries (first : Bool) : Nat → Build (List (Node × Node))
  | 0 => fail
  | fuel + 1 => do
    if ← skipIf .flowMappingEnd then return []
    if !first then accept .flowEntry
    if ← skipIf .flowMappingEnd then return []
    let ends := fun t => t = .flowEntry || t = .flowMappingEnd
    if ← skipIf .key then
      let k ← nodeUnless (fun t => t = .value || ends t) false false fuel
      let v ← valueAfter ends false fuel
      return (k, v) :: (← flowEntries false fuel)
    else
      let k ← node false false fuel
      count 1
      return (k, absent) :: (← flowEntries false fuel)

end

end Node

structure Document where
  /-- The root; `none` if there is no document at all. -/
  root : Option Node
  /-- The nodes that aliases stand for, by number. -/
  anchored : List (Nat × Node)
  parts : Nat

namespace Document

open Node (Build Builder)
open Node.Build

def coreHandles : List (List Char × Bytes) :=
  [(['!'], Text.Utf8.encode "!"), (['!', '!'], Text.Utf8.encode "tag:yaml.org,2002:")]

def addHandle (name : List Char) (meaning : Bytes) : Build Unit := do
  if (← get).handles.any (·.1 = name) then fail
  modify fun b => { b with handles := b.handles ++ [(name, meaning)] }

def directives (versioned : Bool) : Nat → Build Bool
  | 0 => fail
  | fuel + 1 => do
    match ← peek with
    | .version major minor =>
      if versioned || !(major = 1 && (minor = 1 || minor = 2)) then fail
      skip
      let _ ← directives true fuel
      return true
    | .handle name meaning =>
      addHandle name meaning
      skip
      let _ ← directives versioned fuel
      return true
    | _ => return false

def startsDocument (t : Token) : Bool :=
  match t with
  | .version _ _ => true
  | .handle _ _ => true
  | .documentStart => true
  | .documentEnd => true
  | .endOfStream => true
  | _ => false

def skipEnds : Nat → Build Unit
  | 0 => return ()
  | fuel + 1 => do
    if ← skipIf .documentEnd then skipEnds fuel

def readRoot (fuel : Nat) : Build (Option Node) := do
  if ← skipIf .endOfStream then return none
  let directed ← directives false fuel
  modify fun b => { b with handles := b.handles ++ coreHandles }
  let started ← skipIf .documentStart
  if directed && !started then fail
  let n ←
    if started then Node.nodeUnless startsDocument true false fuel
    else Node.node true false fuel
  skipEnds fuel
  accept .endOfStream
  return some n

def anchoredNodes (b : Builder) : List (Nat × Node) :=
  b.places.filterMap fun (number, place) =>
    (b.nodes.find? (·.1 = place)).map fun e => (number, e.2)

def ofTokens? (tokens : List Token) : Option Document := do
  let (root, b) ← (readRoot (4 * tokens.length + 16)).run { tokens }
  return ⟨root, anchoredNodes b, b.parts⟩

def ofText? (text : String) : Option Document := do ofTokens? (← tokens? text)

end Document

end Provision.Yaml
