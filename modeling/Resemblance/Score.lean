/-!
# Scores

A score is a double.  The larger and the smaller of two scores pass over an
undefined one, and of two that compare equal the second is kept.
-/

namespace Resemblance.Score

def larger (x y : Float) : Float :=
  if x.isNaN then y else if x ≤ y then y else x

def smaller (x y : Float) : Float :=
  if x.isNaN then y else if y ≤ x then y else x

def infinity : Float := 1.0 / 0.0

end Resemblance.Score
