import Resemblance.Analysis
import Resemblance.Decimal.Fixed
import Resemblance.Path

/-!
# What a run shows of an analysis

The files come first, then a table with one row for each kept pair.  A cell that
is too wide is not cut.
-/

namespace Resemblance.CommandLine

def alignLeft (width : Nat) (t : List Char) : List Char := t.rightpad width ' '

def alignRight (width : Nat) (t : List Char) : List Char := t.leftpad width ' '

def row (pair cosine jaccard levenshtein : List Char) : String :=
  String.ofList <|
    alignLeft 60 pair ++ " | ".toList ++
      alignRight 7 cosine ++ " | ".toList ++
      alignRight 8 jaccard ++ " | ".toList ++
      alignRight 8 levenshtein ++ " |".toList

def score (x : Float) : List Char := Decimal.fixed 3 x

def comparisonRow (c : Comparison) : String :=
  row (Path.displayName c.fileA ++ " <-> " ++ Path.displayName c.fileB).toList
    (score c.cosine) (score c.jaccard) (score c.levenshtein)

def fileLine (f : FileSummary) : String :=
  s!"processed {f.id} ({f.tokenCount} tokens, language: {f.language.name})"

def tableLines (a : Analysis) : List String :=
  a.files.map fileLine ++
    ["", s!"Comparing {a.files.length} files...", "",
      row "Comparison".toList "Cosine".toList "Jaccard".toList "Leven.".toList,
      String.ofList (List.replicate 95 '-')] ++
    a.results.map comparisonRow

def metricLine (title : String) (r : Range) : String :=
  String.ofList <|
    "  ".toList ++ alignLeft 12 title.toList ++
      "- mean: ".toList ++ score r.mean ++ ", max: ".toList ++ score r.max

def statisticsLines (s : Statistics) : List String :=
  ["", "Similarity statistics:", s!"  Total comparisons: {s.totalPairs}",
    metricLine "Cosine" s.cosine, metricLine "Jaccard" s.jaccard,
    metricLine "Levenshtein" s.levenshtein]

/-- Every line has its end. -/
def joinLines (lines : List String) : String :=
  String.join (lines.map (· ++ "\n"))

end Resemblance.CommandLine
