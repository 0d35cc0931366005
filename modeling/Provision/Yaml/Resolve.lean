import Provision.Json.Value
import Provision.Yaml.Node

/-!
# Values of documents

A plain scalar is null, a truth value, a number or text, by its form. Integers that do not fit
a 64-bit word are refused, and those that do not fit 128 bits either are read as other numbers;
what is no finite number is null. A core tag forces one of these readings, and any tag of its
own makes a value that cannot be used. Aliases are expanded, within a limit.
-/

namespace Provision.Yaml

open Json (Number)

namespace Plain

def isNull (s : List Char) : Bool :=
  s = ['n', 'u', 'l', 'l'] || s = ['N', 'u', 'l', 'l'] || s = ['N', 'U', 'L', 'L'] || s = ['~']

def bool? (s : List Char) : Option Bool :=
  if s = ['t', 'r', 'u', 'e'] || s = ['T', 'r', 'u', 'e'] || s = ['T', 'R', 'U', 'E'] then
    some true
  else if s = ['f', 'a', 'l', 's', 'e'] || s = ['F', 'a', 'l', 's', 'e'] ||
      s = ['F', 'A', 'L', 'S', 'E'] then some false
  else none

def sign : List Char → Bool × List Char
  | '-' :: rest => (true, rest)
  | '+' :: rest => (false, rest)
  | s => (false, s)

def isZeroPadded (s : List Char) : Bool :=
  match (sign s).2 with
  | '0' :: d :: rest => (d :: rest).all isDigit
  | _ => false

def digits? (base : Nat) (s : List Char) : Option Nat := do
  if s.isEmpty then none
  let values ← s.mapM Scalar.hexValue
  if values.all (· < base) then return values.foldl (fun n d => n * base + d) 0 else none

def magnitude? : List Char → Option Nat
  | '0' :: 'x' :: rest => digits? 16 rest
  | '0' :: 'o' :: rest => digits? 8 rest
  | '0' :: 'b' :: rest => digits? 2 rest
  | s => digits? 10 s

def integer? (s : List Char) : Option (Bool × Nat) :=
  if isZeroPadded s then none
  else
    let (minus, rest) := sign s
    (magnitude? rest).map fun n => (minus, n)

inductive Fit where
  | word (n : Number)
  | wide
  | none

def fit (minus : Bool) (n : Nat) : Fit :=
  if minus then
    if n = 0 then .word (.natural 0)
    else if n ≤ Nat.pow 2 63 then .word (.negative n)
    else if n ≤ Nat.pow 2 127 then .wide
    else .none
  else if n < Nat.pow 2 64 then .word (.natural n)
  else if n < Nat.pow 2 128 then .wide
  else .none

/-- The digits before and after a point, where one side may be missing, and an exponent. -/
def decimalParts? (s : List Char) : Option (List Char × List Char × Int) := do
  let whole := s.takeWhile isDigit
  let s := s.dropWhile isDigit
  let (fraction, s) :=
    match s with
    | '.' :: rest => (rest.takeWhile isDigit, rest.dropWhile isDigit)
    | s => ([], s)
  if whole.isEmpty && fraction.isEmpty then none
  match s with
  | [] => return (whole, fraction, 0)
  | e :: rest =>
    if e ≠ 'e' && e ≠ 'E' then none
    let (minus, ds) := sign rest
    let n ← digits? 10 ds
    return (whole, fraction, if minus then -(n : Int) else n)

def real? (s : List Char) : Option (Option Number) :=
  let (minus, rest) := sign s
  if rest = ['.', 'i', 'n', 'f'] || rest = ['.', 'I', 'n', 'f'] || rest = ['.', 'I', 'N', 'F'] then
    some none
  else if s = ['.', 'n', 'a', 'n'] || s = ['.', 'N', 'a', 'N'] || s = ['.', 'N', 'A', 'N'] then
    some none
  else do
    let (whole, fraction, exponent) ← decimalParts? rest
    let x ← Decimal.Binary64.ofDecimal minus (Json.digitsValue (whole ++ fraction))
      (exponent - fraction.length)
    return some (.float x)

def realValue : Option Number → Json.Value
  | some n => .number n
  | none => .null

def integerValue (s : List Char) : Option (Option Json.Value) :=
  match integer? s with
  | none => none
  | some (minus, n) =>
    match fit minus n with
    | .word n => some (some (.number n))
    | .wide => some none
    | .none => none

def value? (s : List Char) : Option Json.Value :=
  if s.isEmpty || isNull s then some .null
  else
    match bool? s with
    | some b => some (.bool b)
    | none =>
      match integerValue s with
      | some v => v
      | none =>
        match if isZeroPadded s then none else real? s with
        | some r => some (realValue r)
        | none => some (.string (String.ofList s))

end Plain

def coreTag (name : String) : Bytes := Text.Utf8.encode ("tag:yaml.org,2002:" ++ name)

def isOwnTag (tag : Option Bytes) : Bool := tag.any fun t => t.head? = some 0x21

def scalarValue (tag : Option Bytes) (text : List Char) (plain : Bool) : Option Json.Value :=
  match tag with
  | none => if plain then Plain.value? text else some (.string (String.ofList text))
  | some t =>
    if isOwnTag tag then none
    else if t = coreTag "bool" then (Plain.bool? text).map .bool
    else if t = coreTag "int" then (Plain.integerValue text).join
    else if t = coreTag "float" then (Plain.real? text).map Plain.realValue
    else if t = coreTag "null" then (if Plain.isNull text then some .null else none)
    else some (.string (String.ofList text))

/-- Reading a document, counting the aliases that were expanded. -/
abbrev Expand (α : Type) : Type := StateT Nat Option α

namespace Document

def follow (d : Document) (n : Node) : Expand Node := do
  match n with
  | .alias number =>
    let jumps ← get
    if 100 * d.parts < jumps + 1 then fun _ => none
    else
      set (jumps + 1)
      match d.anchored.find? (·.1 = number) with
      | some e => return e.2
      | none => fun _ => none
  | n => return n

def keyText (d : Document) (n : Node) : Expand String := do
  match ← d.follow n with
  | .scalar _ text _ => return String.ofList text
  | _ => fun _ => none

def value (d : Document) : Nat → Node → Expand Json.Value
  | 0, n => do
    match ← d.follow n with
    | .scalar tag text plain => fun s => (scalarValue tag text plain).map (·, s)
    | _ => fun _ => none
  | room + 1, n => do
    match ← d.follow n with
    | .alias _ => fun _ => none
    | .scalar tag text plain => fun s => (scalarValue tag text plain).map (·, s)
    | .sequence tag items =>
      if isOwnTag tag then fun _ => none
      else return .array (← items.mapM (value d room))
    | .mapping tag entries =>
      if isOwnTag tag then fun _ => none
      else
        let members ← entries.mapM fun e => do
          let key ← d.keyText e.1
          return (key, ← value d room e.2)
        return .ofDict (Dict.ofList members)

def maxDepth : Nat := 128

def entries? {α : Type} (d : Document) (item : Node → Expand α) : Option (Dict α) :=
  match d.root with
  | none => some {}
  | some (.scalar _ text plain) => if text.isEmpty && plain then some {} else none
  | some (.mapping _ entries) =>
    let read : Expand (List (String × α)) := entries.mapM fun e => do
      let key ← d.keyText e.1
      return (key, ← item e.2)
    (read.run 0).map fun r => Dict.ofList r.1
  | _ => none

def values? (text : String) : Option (Dict Json.Value) := do
  let d ← ofText? text
  d.entries? (d.value (maxDepth - 1))

/-- The map from text to text that a text holds; scalars of any kind are text. -/
def texts? (text : String) : Option (Dict String) := do
  let d ← ofText? text
  d.entries? d.keyText

end Document

end Provision.Yaml
