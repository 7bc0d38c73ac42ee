/-!
# Metrics
-/

namespace Resemblance

inductive Metric where
  | cosine
  | jaccard
  | levenshtein
  deriving DecidableEq, Repr

namespace Metric

def all : List Metric := [cosine, jaccard, levenshtein]

def name : Metric → String
  | cosine => "cosine"
  | jaccard => "jaccard"
  | levenshtein => "levenshtein"

def named? (s : String) : Option Metric := all.find? (·.name == s)

theorem named?_name (m : Metric) : named? m.name = some m := by
  cases m <;> decide

end Metric

end Resemblance
