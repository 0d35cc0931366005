import Provision.Decimal.Binary64

/-!
# The fewest digits that read back

Every binary64 number is the nearest one to all reals of an interval around it; the ends
belong to the interval when the mantissa is even. The shortest decimal of a number is the
coarsest decimal grid with a point in the interval, and of two such points the nearer one. If
a grid has any point in the interval, then one of the two grid points next to the number lies
in it, so only those two are tried.
-/

namespace Provision.Decimal

structure Scaled where
  digits : Nat
  exponent : Int
deriving DecidableEq

def Scaled.normalize : Nat → Scaled → Scaled
  | 0, s => s
  | fuel + 1, s =>
    if s.digits ≠ 0 ∧ s.digits % 10 = 0 then
      Scaled.normalize fuel ⟨s.digits / 10, s.exponent + 1⟩
    else s

namespace Binary64

/-- A number and the ends of its interval, as multiples of one common unit; a point of the
decimal grid of step `10 ^ k` is a multiple of `step` in the same unit. -/
structure Interval where
  low : Nat
  value : Nat
  high : Nat
  step : Nat
  closed : Bool

def interval (x : Binary64) (k : Int) : Interval :=
  let quarter := x.exponent - 2
  let two := if 0 ≤ quarter then Nat.pow 2 quarter.toNat else 1
  let unit := if 0 ≤ quarter then 1 else Nat.pow 2 (-quarter).toNat
  let ten := if 0 ≤ k then Nat.pow 10 k.toNat else 1
  let tenth := if 0 ≤ k then 1 else Nat.pow 10 (-k).toNat
  let scale := two * tenth
  let below := if x.mantissa = Nat.pow 2 52 ∧ minExponent < x.exponent then 1 else 2
  { low := (4 * x.mantissa - below) * scale
    value := 4 * x.mantissa * scale
    high := (4 * x.mantissa + 2) * scale
    step := ten * unit
    closed := x.mantissa % 2 = 0 }

def Interval.holds (i : Interval) (point : Nat) : Bool :=
  if i.closed then i.low ≤ point * i.step && point * i.step ≤ i.high
  else i.low < point * i.step && point * i.step < i.high

def Interval.nearest? (i : Interval) : Option Nat :=
  let down := i.value / i.step
  let up := down + 1
  match i.holds down, i.holds up with
  | false, false => none
  | true, false => some down
  | false, true => some up
  | true, true =>
    let fall := i.value - down * i.step
    let rise := up * i.step - i.value
    if fall < rise then some down
    else if rise < fall then some up
    else if down % 2 = 0 then some down else some up

def atLeastPow (x : Binary64) (e : Int) : Bool :=
  let i := x.interval e
  i.step ≤ i.value

def decimalExponent (x : Binary64) : Int :=
  let log := (x.mantissa.log2 : Int) + x.exponent
  let guess := log * 30103 / 100000
  if x.atLeastPow (guess + 1) then guess + 1
  else if x.atLeastPow guess then guess
  else guess - 1

def search (x : Binary64) (top : Int) : Nat → Nat → Scaled
  | 0, tried => ⟨x.mantissa, top - tried⟩
  | fuel + 1, tried =>
    let k := top - tried + 1
    match (x.interval k).nearest? with
    | some digits => ⟨digits, k⟩
    | none => search x top fuel (tried + 1)

/-- The shortest decimal of the size of `x`; seventeen digits always suffice. -/
def shortest (x : Binary64) : Scaled :=
  if x.mantissa = 0 then ⟨0, 0⟩
  else ((search x x.decimalExponent 18 1)).normalize 18

end Binary64

end Provision.Decimal
