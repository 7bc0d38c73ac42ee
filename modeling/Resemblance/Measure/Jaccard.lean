import Resemblance.Decimal.Binary
import Resemblance.StringSet

/-!
# Jaccard index of two sets of terms

The part of the union that lies in both sets, and zero where the union is empty.
-/

namespace Resemblance

open Decimal

def StringSet.jaccard (s t : StringSet) : Float :=
  let inter := s.interSize t
  let union := s.size + t.size - inter
  if union = 0 then 0.0 else nearestNat inter / nearestNat union

/-- The Jaccard index of two sequences of terms, zero where one of them is
empty. -/
def jaccard (a b : List String) : Float :=
  if a.isEmpty || b.isEmpty then 0.0
  else (StringSet.ofList a).jaccard (StringSet.ofList b)

end Resemblance
