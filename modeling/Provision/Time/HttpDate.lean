import Provision.Time.Timestamp

/-!
# Dates in HTTP headers

The fixed form `Sun, 06 Nov 1994 08:49:37 GMT`, with up to three fraction digits allowed
after the seconds. The name of the day is not looked at.
-/

namespace Provision.HttpDate

def months : List (List Char × Nat) :=
  [("Jan", 1), ("Feb", 2), ("Mar", 3), ("Apr", 4), ("May", 5), ("Jun", 6), ("Jul", 7),
   ("Aug", 8), ("Sep", 9), ("Oct", 10), ("Nov", 11), ("Dec", 12)].map
    fun (name, n) => (name.toList, n)

def slice (cs : List Char) (low high : Nat) : List Char :=
  (cs.take high).drop low

def digits? (cs : List Char) : Option Nat :=
  if !cs.isEmpty && cs.all Timestamp.isDigit then some (Json.digitsValue cs) else none

def readFraction (cs : List Char) : Option Nat :=
  match cs with
  | [] => some 0
  | '.' :: ds =>
    if ds.length ≤ 3 then (digits? ds).map (· * Nat.pow 10 (9 - ds.length)) else none
  | _ => none

def read? (cs : List Char) : Option Timestamp := do
  guard (29 ≤ cs.length && cs.length ≤ 33)
  guard (cs.drop (cs.length - 4) = [' ', 'G', 'M', 'T'])
  guard (slice cs 7 8 = [' '] && slice cs 11 12 = [' '] && slice cs 16 17 = [' '])
  let nanos ← readFraction (slice cs 25 (cs.length - 4))
  let month ← (months.find? fun m => m.1 = slice cs 8 11).map (·.2)
  let t : Timestamp :=
    { year := ((← digits? (slice cs 12 16)) : Nat)
      month
      day := ← digits? (slice cs 5 7)
      hour := ← digits? (slice cs 17 19)
      minute := ← digits? (slice cs 20 22)
      second := ← digits? (slice cs 23 25)
      nanos }
  guard (t.Valid ∧ t.second < 60)
  return t

def ofText? (s : String) : Option Timestamp := read? (Text.trim s).toList

end Provision.HttpDate
