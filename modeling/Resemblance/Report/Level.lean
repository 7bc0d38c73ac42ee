import Resemblance.Comparison

/-!
# Levels of similarity
-/

namespace Resemblance

inductive SimilarityLevel where
  | high
  | medium
  | low
  deriving DecidableEq, Repr

def SimilarityLevel.ofScore (x : Float) : SimilarityLevel :=
  if 0.7 ≤ x then high else if 0.4 ≤ x then medium else low

def SimilarityLevel.label : SimilarityLevel → String
  | high => "HIGH"
  | medium => "MEDIUM"
  | low => "LOW"

/-- Whether a score is high enough for its pair to be listed. -/
def isHighScore (x : Float) : Bool := 0.7 ≤ x

/-- How far the metrics agree that some pair is highly similar. -/
inductive Consistency where
  | high
  | moderate
  | divergent
  deriving DecidableEq, Repr

namespace Consistency

def ofResults (results : List Comparison) : Consistency :=
  match (Metric.all.filter fun m => results.any fun c =>
    isHighScore (c.score m)).length with
  | 3 => high
  | 2 => moderate
  | _ => divergent

def label : Consistency → String
  | high => "High"
  | moderate => "Moderate"
  | divergent => "Divergent"

end Consistency

end Resemblance
