import Provision.Text.Blank
import Provision.Json.Number

/-!
# Points in time

A timestamp is a civil date and time of day in UTC, down to the nanosecond; a second numbered
60 is a leap second. It is written in RFC 3339 form with a `Z` and zero, three, six or nine
fraction digits. Reading is more lenient: blanks may stand between the parts, leading zeros
may be missing, and any offset below a day is taken into account.
-/

namespace Provision

structure Timestamp where
  year : Int
  month : Nat
  day : Nat
  hour : Nat
  minute : Nat
  second : Nat
  nanos : Nat
deriving DecidableEq, Inhabited

namespace Timestamp

open Provision.Text

def isLeapYear (y : Int) : Bool :=
  y % 4 = 0 && (y % 100 ≠ 0 || y % 400 = 0)

def daysInMonth (y : Int) (m : Nat) : Nat :=
  if m = 2 then (if isLeapYear y then 29 else 28)
  else if m = 4 ∨ m = 6 ∨ m = 9 ∨ m = 11 then 30
  else 31

def minYear : Int := -262143

def maxYear : Int := 262142

/-- A date of the supported calendar range and a time of day, leap seconds included. -/
def Valid (t : Timestamp) : Prop :=
  minYear ≤ t.year ∧ t.year ≤ maxYear ∧ 1 ≤ t.month ∧ t.month ≤ 12 ∧
    1 ≤ t.day ∧ t.day ≤ daysInMonth t.year t.month ∧
    t.hour < 24 ∧ t.minute < 60 ∧ t.second ≤ 60 ∧ t.nanos < 1000000000

instance (t : Timestamp) : Decidable t.Valid := by
  unfold Valid
  infer_instance

def nextDay (t : Timestamp) : Timestamp :=
  if t.day < daysInMonth t.year t.month then { t with day := t.day + 1 }
  else if t.month < 12 then { t with month := t.month + 1, day := 1 }
  else { t with year := t.year + 1, month := 1, day := 1 }

def previousDay (t : Timestamp) : Timestamp :=
  if 1 < t.day then { t with day := t.day - 1 }
  else if 1 < t.month then
    { t with month := t.month - 1, day := daysInMonth t.year (t.month - 1) }
  else { t with year := t.year - 1, month := 12, day := 31 }

def atOffset (t : Timestamp) (offset : Int) : Timestamp :=
  let minutes : Int := t.hour * 60 + t.minute - offset
  let moved :=
    if minutes < 0 then t.previousDay
    else if 1440 ≤ minutes then t.nextDay
    else t
  let ofDay := (minutes % 1440).toNat
  { moved with hour := ofDay / 60, minute := ofDay % 60 }

def padded (width n : Nat) : List Char :=
  let ds := Json.natDigits n
  List.replicate (width - ds.length) '0' ++ ds

/-- Four digits, and a sign for years that need more or lie before year zero. -/
def writeYear (y : Int) : List Char :=
  if 0 ≤ y ∧ y ≤ 9999 then padded 4 y.toNat
  else (if y < 0 then '-' else '+') :: padded 4 y.natAbs

def writeFraction (nanos : Nat) : List Char :=
  if nanos = 0 then []
  else if nanos % 1000000 = 0 then '.' :: padded 3 (nanos / 1000000)
  else if nanos % 1000 = 0 then '.' :: padded 6 (nanos / 1000)
  else '.' :: padded 9 nanos

def writeCivil (t : Timestamp) : List Char :=
  writeYear t.year ++ '-' :: padded 2 t.month ++ '-' :: padded 2 t.day ++
    'T' :: padded 2 t.hour ++ ':' :: padded 2 t.minute ++ ':' :: padded 2 t.second ++
    writeFraction t.nanos

def write (t : Timestamp) : List Char := t.writeCivil ++ ['Z']

def text (t : Timestamp) : String := String.ofList t.write

/-- The form with a numeric offset, which version tokens made from a time use. -/
def offsetText (t : Timestamp) : String :=
  String.ofList (t.writeCivil ++ ['+', '0', '0', ':', '0', '0'])

abbrev Reader (α : Type) : Type := List Char → Option (α × List Char)

def isDigit (c : Char) : Bool := '0' ≤ c && c ≤ '9'

def skipBlanks (cs : List Char) : List Char := cs.dropWhile isBlank

def number (most : Nat) : Reader Nat := fun cs =>
  let ds := (cs.take most).takeWhile isDigit
  if ds.isEmpty then none else some (Json.digitsValue ds, cs.drop ds.length)

def field (low high : Nat) : Reader Nat := fun cs => do
  let (n, rest) ← number 2 (skipBlanks cs)
  if low ≤ n ∧ n ≤ high then some (n, rest) else none

def mark (c : Char) : Reader Unit := fun cs =>
  match skipBlanks cs with
  | [] => none
  | d :: rest => if d = c then some ((), rest) else none

def readYear : Reader Int := fun cs =>
  match skipBlanks cs with
  | '-' :: rest => (number rest.length rest).map fun (n, r) => (-(n : Int), r)
  | '+' :: rest => (number rest.length rest).map fun (n, r) => ((n : Int), r)
  | cs => (number 4 cs).map fun (n, r) => ((n : Int), r)

def readFraction : Reader Nat
  | '.' :: cs => do
    let ds := (cs.take 9).takeWhile isDigit
    if ds.isEmpty then none
    else some (Json.digitsValue ds * Nat.pow 10 (9 - ds.length), cs.dropWhile isDigit)
  | cs => some (0, cs)

def offsetSize : Reader Nat
  | a :: b :: cs =>
    match cs.dropWhile fun c => c = ':' || isBlank c with
    | c :: d :: rest =>
      if isDigit a ∧ isDigit b ∧ isDigit c ∧ isDigit d ∧ c < '6' then
        let n := Json.digitsValue [a, b] * 60 + Json.digitsValue [c, d]
        if n < 1440 then some (n, rest) else none
      else none
    | _ => none
  | _ => none

def startsUtc : List Char → Bool
  | a :: b :: c :: _ => a.toUpper = 'U' && b.toUpper = 'T' && c.toUpper = 'C'
  | _ => false

def readOffset : Reader Int := fun cs =>
  if startsUtc cs then some (0, cs.drop 3)
  else
    match cs with
    | 'Z' :: rest => some (0, rest)
    | 'z' :: rest => some (0, rest)
    | '+' :: rest => (offsetSize rest).map fun (n, r) => ((n : Int), r)
    | '-' :: rest => (offsetSize rest).map fun (n, r) => (-(n : Int), r)
    | '−' :: rest => (offsetSize rest).map fun (n, r) => (-(n : Int), r)
    | _ => none

def readSeparator : Reader Unit
  | 'T' :: rest => some ((), rest)
  | 't' :: rest => some ((), rest)
  | ' ' :: rest => some ((), rest)
  | _ => none

def read? (cs : List Char) : Option Timestamp := do
  let (year, cs) ← readYear cs
  let (_, cs) ← mark '-' cs
  let (month, cs) ← field 1 12 cs
  let (_, cs) ← mark '-' cs
  let (day, cs) ← field 1 31 cs
  let (_, cs) ← readSeparator cs
  let (hour, cs) ← field 0 23 cs
  let (_, cs) ← mark ':' cs
  let (minute, cs) ← field 0 59 cs
  let (_, cs) ← mark ':' cs
  let (second, cs) ← field 0 60 cs
  let (nanos, cs) ← readFraction cs
  let (offset, cs) ← readOffset (skipBlanks cs)
  guard (skipBlanks cs).isEmpty
  let civil : Timestamp := ⟨year, month, day, hour, minute, second, nanos⟩
  guard (civil.Valid)
  let utc := civil.atOffset offset
  guard (utc.Valid)
  return utc

def ofText? (s : String) : Option Timestamp := read? s.toList

end Timestamp

end Provision
