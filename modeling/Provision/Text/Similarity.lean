/-!
# Similarity of words

The Jaro measure: characters of two words match if they are equal and not far apart, and
matches in a different order count half. `isSimilar` holds above seven tenths.
-/

namespace Provision.Text.Similarity

def takePlace (c : Char) (low high : Nat) : Nat → List (Char × Bool) → Option (List (Char × Bool))
  | _, [] => none
  | i, (d, taken) :: rest =>
    if low ≤ i && i ≤ high && !taken && c = d then some ((d, true) :: rest)
    else (takePlace c low high (i + 1) rest).map ((d, taken) :: ·)

/-- The characters of the first word that match, and the second word with its matches. -/
def matchUp (window : Nat) : Nat → List Char → List (Char × Bool) → List Char × List (Char × Bool)
  | _, [], marked => ([], marked)
  | i, c :: rest, marked =>
    match takePlace c (i - window) (i + window) 0 marked with
    | some marked =>
      let (found, marked) := matchUp window (i + 1) rest marked
      (c :: found, marked)
    | none => matchUp window (i + 1) rest marked

def jaro (a b : List Char) : Nat × Nat :=
  if a.isEmpty && b.isEmpty then (1, 1)
  else
    let window := max a.length b.length / 2 - 1
    let (found, marked) := matchUp window 0 a (b.map fun c => (c, false))
    let others := (marked.filter (·.2)).map (·.1)
    let m := found.length
    if m = 0 then (0, 1)
    else
      let swapped := ((found.zip others).filter fun p => p.1 ≠ p.2).length / 2
      let (la, lb) := (a.length, b.length)
      (m * m * lb + m * m * la + (m - swapped) * la * lb, 3 * la * lb * m)

def isSimilar (a b : String) : Bool :=
  let (num, den) := jaro a.toList b.toList
  7 * den < 10 * num

end Provision.Text.Similarity
