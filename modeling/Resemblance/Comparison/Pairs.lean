/-!
# Pairs in input order

Every two positions of a list make one pair, the earlier position first.
-/

namespace Resemblance

/-- The first position is fixed while the second walks over all later ones. -/
def pairIndices (n : Nat) : List (Nat × Nat) :=
  (List.range n).flatMap fun i => (List.range' (i + 1) (n - (i + 1))).map (i, ·)

/-- The number of pairs among `n` things. -/
def pairCount (n : Nat) : Nat := n * (n - 1) / 2

end Resemblance
