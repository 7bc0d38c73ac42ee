import Resemblance.Metric
import Resemblance.Score

/-!
# Comparisons

A comparison holds the three scores of one pair of files.
-/

namespace Resemblance

structure Comparison where
  fileA : String
  fileB : String
  cosine : Float
  jaccard : Float
  levenshtein : Float

namespace Comparison

def score (c : Comparison) : Metric → Float
  | .cosine => c.cosine
  | .jaccard => c.jaccard
  | .levenshtein => c.levenshtein

def maxScore (c : Comparison) : Float :=
  Score.larger (Score.larger c.cosine c.jaccard) c.levenshtein

end Comparison

end Resemblance
