import Resemblance.Decimal.Binary
import Resemblance.Frequency
import Resemblance.Score

/-!
# Cosine of two frequency tables

The dot product over the product of the two lengths.  The squared lengths are
multiplied before the one square root, so a table measured against itself
scores exactly one.
-/

namespace Resemblance

open Decimal

def Frequency.norm (f : Frequency) : Float := (nearestNat f.squaredNorm).sqrt

def Frequency.cosine (f g : Frequency) : Float :=
  let dot := f.dot g
  if dot = 0 then 0.0
  else
    let denominator :=
      (nearestNat f.squaredNorm * nearestNat g.squaredNorm).sqrt
    if denominator == 0.0 then 0.0
    else Score.smaller (nearestNat dot / denominator) 1.0

/-- The cosine of two sequences of terms, zero where one of them is empty. -/
def cosine (a b : List String) : Float :=
  if a.isEmpty || b.isEmpty then 0.0
  else (Frequency.ofTerms a).cosine (Frequency.ofTerms b)

end Resemblance
