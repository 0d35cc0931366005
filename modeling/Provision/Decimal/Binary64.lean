/-!
# Finite binary64 numbers

A finite number is a sign, a mantissa below 2^53 and a power of two not below 2^-1074. A
quotient is rounded to the nearest such number, a tie going to the even mantissa; one that
would round beyond the largest number has none. A decimal is one quotient. So is a product or
a quotient of two numbers, which are exact until then.
-/

namespace Provision.Decimal

/-- The number `± mantissa * 2 ^ exponent`. -/
structure Binary64 where
  negative : Bool
  mantissa : Nat
  exponent : Int
deriving DecidableEq, Inhabited

namespace Binary64

def minExponent : Int := -1074

def maxExponent : Int := 971

def zero (negative : Bool) : Binary64 := ⟨negative, 0, minExponent⟩

/-- The quotient rounded to the nearest integer, a tie going to the even one. -/
def roundDiv (num den : Nat) : Nat :=
  let q := num / den
  let r := num % den
  if 2 * r < den then q
  else if den < 2 * r then q + 1
  else q + q % 2

def inUnits (num den : Nat) (e : Int) : Nat :=
  if 0 ≤ e then roundDiv num (den * Nat.pow 2 e.toNat)
  else roundDiv (num * Nat.pow 2 (-e).toNat) den

def belowPow (num den : Nat) (e : Int) : Bool :=
  if 0 ≤ e then num < den * Nat.pow 2 e.toNat
  else num * Nat.pow 2 (-e).toNat < den

/-- The number `± m * 2 ^ unit`. A mantissa of one digit too many moves to the next place. -/
def carried (negative : Bool) (m : Nat) (unit : Int) : Option Binary64 :=
  let (m, unit) := if m = Nat.pow 2 53 then (Nat.pow 2 52, unit + 1) else (m, unit)
  if maxExponent < unit then none else some ⟨negative, m, unit⟩

def ofRatio (negative : Bool) (num den : Nat) : Option Binary64 :=
  let guess : Int := (num.log2 : Int) - (den.log2 : Int) - 52
  let unit := if belowPow num den (guess + 52) then guess - 1 else guess
  let unit := max unit minExponent
  carried negative (inUnits num den unit) unit

def digitCount (n : Nat) : Nat :=
  if n = 0 then 0 else (Nat.toDigits 10 n).length

def ofDecimal (negative : Bool) (digits : Nat) (exponent : Int) : Option Binary64 :=
  let top : Int := digitCount digits + exponent
  if digits = 0 ∨ top < -400 then some (zero negative)
  else if 400 < top then none
  else if 0 ≤ exponent then ofRatio negative (digits * Nat.pow 10 exponent.toNat) 1
  else ofRatio negative digits (Nat.pow 10 (-exponent).toNat)

def quotient (negative : Bool) (num den : Nat) : Option Binary64 :=
  if num = 0 then some (zero negative) else ofRatio negative num den

def num (x : Binary64) : Nat := x.mantissa * Nat.pow 2 x.exponent.toNat

def den (x : Binary64) : Nat := Nat.pow 2 (-x.exponent).toNat

def mul (x y : Binary64) : Option Binary64 :=
  quotient (x.negative != y.negative) (x.num * y.num) (x.den * y.den)

def div (x y : Binary64) : Option Binary64 :=
  quotient (x.negative != y.negative) (x.num * y.den) (x.den * y.num)

end Binary64

end Provision.Decimal
