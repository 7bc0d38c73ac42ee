import Resemblance.Decimal.Binary

/-!
# Edit distance

The least number of insertions, deletions and substitutions of one character
that turn one text into the other.  A row holds the distances from a start of
the longer text to all starts of the shorter one, and each further character
of the longer text turns the row into the next.
-/

namespace Resemblance

open Decimal

namespace EditDistance

/-- The rest of the next row; `left` stands before it and `corner` above
`left`. -/
def extendRow (c : Char) (left corner : Nat) : List Char → List Nat → List Nat
  | d :: inner, above :: row =>
    let here :=
      min (min (corner + if c = d then 0 else 1) (above + 1)) (left + 1)
    here :: extendRow c here above inner row
  | _, _ => []

def nextRow (inner : List Char) (row : List Nat) (c : Char) : List Nat :=
  match row with
  | [] => []
  | corner :: rest => (corner + 1) :: extendRow c (corner + 1) corner inner rest

def lastRow (outer inner : List Char) : List Nat :=
  outer.foldl (nextRow inner) (List.range (inner.length + 1))

end EditDistance

def editDistance (a b : List Char) : Nat :=
  let (outer, inner) := if a.length < b.length then (b, a) else (a, b)
  if inner.isEmpty then outer.length
  else (EditDistance.lastRow outer inner).getLastD 0

/-- One for equal texts and less by the distance per character of the longer
text. -/
def editRatio (a b : List Char) : Float :=
  match a.isEmpty, b.isEmpty with
  | true, true => 1.0
  | false, false =>
    1.0 - nearestNat (editDistance a b) / nearestNat (max a.length b.length)
  | _, _ => 0.0

end Resemblance
