import Resemblance.Comparison
import Resemblance.Decimal.Binary

/-!
# Statistics of a list of comparisons
-/

namespace Resemblance

open Decimal

structure Range where
  min : Float
  mean : Float
  max : Float

namespace Range

/-- Undefined scores count for the mean and are passed over by the two ends. -/
def ofScores (scores : List Float) : Range where
  min := scores.foldl Score.smaller Score.infinity
  mean := scores.foldl (· + ·) 0.0 / nearestNat scores.length
  max := scores.foldl Score.larger (-Score.infinity)

def spread (r : Range) : Float := r.max - r.min

end Range

structure Statistics where
  cosine : Range
  jaccard : Range
  levenshtein : Range
  totalPairs : Nat

namespace Statistics

def range (s : Statistics) : Metric → Range
  | .cosine => s.cosine
  | .jaccard => s.jaccard
  | .levenshtein => s.levenshtein

/-- The statistics of a list of comparisons, none of an empty list. -/
def aggregate (results : List Comparison) : Option Statistics :=
  if results.isEmpty then none
  else
    let range m := Range.ofScores (results.map (·.score m))
    some
      { cosine := range .cosine
        jaccard := range .jaccard
        levenshtein := range .levenshtein
        totalPairs := results.length }

def metricEntries (s : Statistics) (m : Metric) : List (String × Float) :=
  let r := s.range m
  [(m.name ++ "_mean", r.mean), (m.name ++ "_min", r.min),
    (m.name ++ "_max", r.max)]

/-- The scores under their names, in the order of the metrics. -/
def scoreEntries (s : Statistics) : List (String × Float) :=
  Metric.all.flatMap s.metricEntries

def totalPairsKey : String := "total_pairs"

def entries (s : Statistics) : List (String × Float) :=
  s.scoreEntries ++ [(totalPairsKey, nearestNat s.totalPairs)]

def overallMean (s : Statistics) : Float :=
  (s.cosine.mean + s.jaccard.mean + s.levenshtein.mean) / 3.0

/-- The metric with the widest range, the earliest of several. -/
def mostDiscriminating (s : Statistics) : Metric :=
  Metric.all.foldl
    (fun best m => if (s.range best).spread < (s.range m).spread then m
      else best) .cosine

end Statistics

end Resemblance
