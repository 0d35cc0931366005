import Provision.Decimal.Shortest

/-!
# JSON numbers

An integer literal in the range of a 64-bit word stays an integer. Of every other literal a word
of digits is kept, and the binary64 number nearest to that word is multiplied or divided by the
one nearest to a power of ten. So the number that is read may be next to the nearest one, and a
literal has none if the product overflows. `text` writes a number: integers in decimal, other
numbers with the fewest digits that tell them apart, in positional form for decimal exponents
from -5 to 15 and with an exponent outside them.
-/

namespace Provision.Json

open Provision.Decimal

/-- A number of a document. `natural n` has `n < 2 ^ 64`; `negative n` stands for `-n` with
`0 < n ≤ 2 ^ 63`. -/
inductive Number where
  | natural (n : Nat)
  | negative (n : Nat)
  | float (x : Binary64)
deriving DecidableEq, Inhabited

structure Literal where
  minus : Bool
  whole : List Char
  fraction : Option (List Char)
  exponent : Option Int
deriving DecidableEq

def digitValue (c : Char) : Nat := c.toNat - '0'.toNat

def digitsValue (cs : List Char) : Nat :=
  cs.foldl (fun n c => n * 10 + digitValue c) 0

namespace Number

def wordLimit : Nat := Nat.pow 2 64

def negativeLimit : Nat := Nat.pow 2 63

def ofInteger (minus : Bool) (n : Nat) : Option Number :=
  if minus then
    if 0 < n ∧ n ≤ negativeLimit then some (.negative n) else none
  else if n < wordLimit then some (.natural n)
  else none

/-- Digits are appended to a word until one does not fit; that one and the rest are left. -/
def appendDigits (n : Nat) : List Char → Nat × List Char
  | [] => (n, [])
  | c :: cs =>
    if n * 10 + digitValue c < wordLimit then appendDigits (n * 10 + digitValue c) cs
    else (n, c :: cs)

def tableEnd : Nat := 308

def tenPow (k : Nat) : Option Binary64 := Binary64.quotient false (Nat.pow 10 k) 1

def scaleUp (x : Binary64) (k : Nat) : Option Binary64 :=
  if k ≤ tableEnd then (tenPow k).bind x.mul
  else if x.mantissa = 0 then some x
  else none

def scaleDown (x : Binary64) (k : Nat) : Option Binary64 :=
  if k ≤ tableEnd then (tenPow k).bind x.div
  else if x.mantissa = 0 then some x
  else ((tenPow tableEnd).bind x.div).bind fun y => scaleDown y (k - tableEnd)
termination_by k
decreasing_by
  unfold tableEnd at *
  omega

end Number

namespace Literal

def tail (l : Literal) : List Char := l.fraction.getD []

def wholeKept (l : Literal) : Nat × List Char := Number.appendDigits 0 l.whole

def kept (l : Literal) : Nat × List Char := Number.appendDigits l.wholeKept.1 l.tail

def significand (l : Literal) : Nat := l.kept.1

/-- The power of ten of the word. Digits left of the whole part count as places, digits left of
the fraction do not. -/
def power (l : Literal) : Int :=
  l.exponent.getD 0 + l.wholeKept.2.length - (l.tail.length - l.kept.2.length)

def integer? (l : Literal) : Option Number :=
  match l.fraction, l.exponent with
  | none, none => Number.ofInteger l.minus (digitsValue l.whole)
  | _, _ => none

def magnitude? (l : Literal) : Option Binary64 :=
  (Binary64.quotient false l.significand 1).bind fun x =>
    if 0 ≤ l.power then Number.scaleUp x l.power.toNat else Number.scaleDown x (-l.power).toNat

def float? (l : Literal) : Option Binary64 :=
  l.magnitude?.map fun x => { x with negative := l.minus }

end Literal

def Number.ofLiteral (l : Literal) : Option Number :=
  match l.integer? with
  | some n => some n
  | none => l.float?.map .float

structure FloatFormat where
  /-- Decimal exponents from `low` up to `high` are written positionally. -/
  low : Int
  high : Int

def FloatFormat.positional (f : FloatFormat) (e : Int) : Bool :=
  f.low ≤ e && e ≤ f.high

/-- Documents write exponents from -5 to 15 positionally. -/
def floatFormat : FloatFormat := ⟨-5, 15⟩

def natDigits (n : Nat) : List Char := Nat.toDigits 10 n

def writePositional (digits : List Char) (e : Int) : List Char :=
  if e < 0 then
    '0' :: '.' :: (List.replicate ((-e).toNat - 1) '0' ++ digits)
  else
    let before := e.toNat + 1
    if digits.length ≤ before then
      digits ++ List.replicate (before - digits.length) '0' ++ ['.', '0']
    else digits.take before ++ '.' :: digits.drop before

def writeExponent (digits : List Char) (e : Int) : List Char :=
  let mantissa :=
    match digits with
    | [] => []
    | [d] => [d]
    | d :: rest => d :: '.' :: rest
  let sign := if e < 0 then '-' else '+'
  mantissa ++ 'e' :: sign :: natDigits e.natAbs

def writeFloat (x : Binary64) : List Char :=
  let s := x.shortest
  let digits := natDigits s.digits
  let e := s.exponent + (digits.length : Int) - 1
  let body :=
    if floatFormat.positional e then writePositional digits e else writeExponent digits e
  if x.negative then '-' :: body else body

def Number.write : Number → List Char
  | .natural n => natDigits n
  | .negative n => '-' :: natDigits n
  | .float x => writeFloat x

def Number.text (n : Number) : String := String.ofList n.write

end Provision.Json
