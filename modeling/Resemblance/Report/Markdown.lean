import Resemblance.Report.Json
import Resemblance.Report.Level

/-!
# The report for readers

The report is a list of lines.  Sections that need statistics are left out when
no pair was kept, and the matrix is drawn for more than three files.
-/

namespace Resemblance.Report

open Decimal Calendar

def decimals (places : Nat) (x : Float) : String :=
  String.ofList (fixed places x)

def code (name : String) : String := "`" ++ name ++ "`"

def strong (t : String) : String := "**" ++ t ++ "**"

def metricTitle : Metric → String
  | .cosine => "Cosine similarity"
  | .jaccard => "Jaccard index"
  | .levenshtein => "Levenshtein ratio"

/-- The sign of a score in the matrix. -/
def marker (x : Float) : String :=
  if 0.8 ≤ x then "🔴" else if 0.6 ≤ x then "🟡" else if 0.4 ≤ x then "🟢" else "⚪"

/-- A bar of at most twenty blocks; the undefined score has none. -/
def bar (x : Float) : String :=
  let clamped := if x < 0.0 then 0.0 else if 1.0 < x then 1.0 else x
  String.ofList (List.replicate (clamped * 20.0).toUInt64.toNat '█')

def interpretation : SimilarityLevel → String
  | .high => "Significant similarities were detected that need attention."
  | .medium => "Moderate similarities are present between some files."
  | .low => "The files differ considerably in structure."

def finding : SimilarityLevel → String
  | .high =>
    "**Significant similarity detected**: the files share structural " ++
      "patterns that suggest a common origin or code reuse."
  | .medium =>
    "**Moderate similarity observed**: some similarity exists, possibly " ++
      "from shared conventions or similar functionality."
  | .low =>
    "**Diverse files**: the code differs substantially, indicating " ++
      "independent implementations."

def verdict : Consistency → String
  | .high =>
    "**High consistency**: all three metrics flag high similarities, " ++
      "which makes the analysis more reliable."
  | .moderate =>
    "**Moderate consistency**: at least two metrics agree on the main findings."
  | .divergent =>
    "**Divergent metrics**: each metric captures a different aspect of " ++
      "similarity, suggesting complex similarity patterns."

def recommendations (overall : Float) : List String :=
  if 0.8 ≤ overall then
    ["**Manual review needed**: inspect the highly similar files for " ++
        "duplication or plagiarism.",
      "**Refactoring**: consider extracting shared code into reusable modules."]
  else if 0.6 ≤ overall then
    ["**Monitoring recommended**: track how these similarities evolve in " ++
        "future versions.",
      "**Documentation**: record why the high similarities exist if they " ++
        "are intentional."]
  else
    ["**Diversity confirmed**: the observed variability is expected in " ++
        "independent work."]

def heading (a : Analysis) (moment : Moment) : List String :=
  ["# Source Code Similarity Report", "",
    "**Computational analysis of similarity between source files**",
    "*Cosine, Jaccard and Levenshtein metrics*", "", "---", "",
    "## Analysis Information", "",
    "- **Generated:** " ++ moment.readable,
    "- **Version:** " ++ version,
    s!"- **Files analyzed:** {a.files.length}",
    s!"- **Total comparisons:** {a.results.length}",
    "- **Metrics:** Cosine, Jaccard, Levenshtein",
    "- **Algorithms:** Salton et al. (1975), Jaccard (1912), " ++
      "Levenshtein (1966)", ""]

/-- The first result whose largest score is above those of all results before
it, and above zero. -/
def mostSimilar? (results : List Comparison) : Option Comparison :=
  results.foldl
    (fun best c =>
      if (best.map (·.maxScore)).getD 0.0 < c.maxScore then some c else best)
    none

def mostSimilarLine (c : Comparison) : String :=
  "- **Most similar files:** " ++ code (Path.displayName c.fileA) ++ " and " ++
    code (Path.displayName c.fileB) ++ " (" ++ decimals 3 c.maxScore ++ ")"

def summary (results : List Comparison) (s : Statistics) : List String :=
  let level := SimilarityLevel.ofScore s.overallMean
  ["## Executive Summary", "",
    "- **Overall similarity level:** " ++ strong level.label ++ " (" ++
      decimals 3 s.overallMean ++ ")",
    "- **Interpretation:** " ++ interpretation level,
    "- **Most discriminating metric:** " ++ metricTitle s.mostDiscriminating] ++
    ((mostSimilar? results).map mostSimilarLine).toList ++ [""]

def fileList (a : Analysis) : List String :=
  ["## Files Analyzed", ""] ++
    (a.files.zipIdx.map fun (f, i) => s!"{i + 1}. " ++ code f.name) ++ [""]

def exclusionList (a : Analysis) : List String :=
  if a.excluded.isEmpty then []
  else
    ["### Excluded Files", ""] ++
      (a.excluded.map fun e =>
        "- " ++ code (Path.displayName e.id) ++ ": " ++ e.reason) ++ [""]

/-- The score of the last result for a pair of names, in either order; zero for
a dropped pair. -/
def pairScore (results : List Comparison) (m : Metric) (x y : String) : Float :=
  match results.reverse.find? fun c =>
      (c.fileA == x && c.fileB == y) || (c.fileB == x && c.fileA == y) with
  | some c => c.score m
  | none => 0.0

def matrixCell
    (results : List Comparison) (m : Metric) (row column : FileSummary × Nat) :
    String :=
  if row.2 = column.2 then " **1.000** |"
  else if row.2 < column.2 then
    let x := pairScore results m row.1.id column.1.id
    " " ++ marker x ++ strong (decimals 3 x) ++ " |"
  else " - |"

def matrix (a : Analysis) (m : Metric) : List String :=
  let files := a.files.zipIdx
  ("| |" ++ String.join (a.files.map fun f => " " ++ code f.name ++ " |")) ::
    ("|" ++ String.join (List.replicate (a.files.length + 1) "-|")) ::
    files.map fun row =>
      "| " ++ code row.1.name ++ " |" ++
        String.join (files.map (matrixCell a.results m row))

def matrixSection (a : Analysis) : List String :=
  if 3 < a.files.length then
    ["### Similarity Matrix (Cosine)", ""] ++ matrix a .cosine ++ [""]
  else []

def comparisonRow (c : Comparison) : String :=
  "| " ++ code (Path.displayName c.fileA) ++ " | " ++
    code (Path.displayName c.fileB) ++ " | " ++
    decimals 3 c.cosine ++ " | " ++ decimals 3 c.jaccard ++ " | " ++
    decimals 3 c.levenshtein ++ " |"

def comparisonTable (a : Analysis) : List String :=
  ["### Detailed Comparisons", "",
    "| File A | File B | Cosine | Jaccard | Levenshtein |",
    "|--------|--------|--------|---------|-------------|"] ++
    a.results.map comparisonRow ++ [""]

def distribution (s : Statistics) : List String :=
  ["### Similarity Distribution", "", "```"] ++
    (Metric.all.flatMap fun m =>
      let r := s.range m
      [metricTitle m,
        "Min  " ++ decimals 3 r.min ++ " " ++ bar r.min,
        "Mean " ++ decimals 3 r.mean ++ " " ++ bar r.mean,
        "Max  " ++ decimals 3 r.max ++ " " ++ bar r.max]) ++
    ["```", ""]

def metricTable (s : Statistics) : List String :=
  ["### Detailed Metrics", "",
    "| Metric | Min | Mean | Max |",
    "|--------|-----|------|-----|"] ++
    (Metric.all.map fun m =>
      let r := s.range m
      "| " ++ strong (metricTitle m) ++ " | " ++ decimals 3 r.min ++ " | " ++
        decimals 3 r.mean ++ " | " ++ decimals 3 r.max ++ " |") ++
    [""]

def highPairs (results : List Comparison) : List String :=
  let high := results.filter fun c => isHighScore c.maxScore
  if high.isEmpty then []
  else
    ["### High Similarities Detected", "",
      "The following pairs show high similarity (≥ 0.7):", ""] ++
      (high.map fun c =>
        "- " ++ code (Path.displayName c.fileA) ++ " ↔ " ++
          code (Path.displayName c.fileB) ++ ": " ++
          strong (decimals 3 c.maxScore)) ++
      [""]

def statisticsSection
    (results : List Comparison) (s : Statistics) : List String :=
  ["## Summary Statistics", ""] ++ distribution s ++ metricTable s ++
    highPairs results

def guide : List String :=
  ["## Interpreting Results", "",
    "- **0.0 - 0.3:** low similarity (very different code)",
    "- **0.3 - 0.7:** medium similarity (some shared elements)",
    "- **0.7 - 0.9:** high similarity (very similar code)",
    "- **0.9 - 1.0:** very high similarity (possible duplication)", ""]

def conclusions (results : List Comparison) (s : Statistics) : List String :=
  if results.isEmpty then []
  else
    ["## Conclusions", "", "### Main Finding", "",
      "- " ++ finding (.ofScore s.overallMean), "",
      "### Metric Consistency", ""] ++
      (Metric.all.map fun m =>
        let high := (results.filter fun c => isHighScore (c.score m)).length
        "- " ++ metricTitle m ++
          s!": {high} of {results.length} pairs ≥ 0.7") ++
      ["- " ++ verdict (.ofResults results), "", "### Recommendations", ""] ++
      (recommendations s.overallMean).map ("- " ++ ·) ++ [""]

def ifStatistics
    (a : Analysis) (part : List Comparison → Statistics → List String) :
    List String :=
  (a.statistics.map (part a.results)).getD []

def markdownLines (a : Analysis) (moment : Moment) : List String :=
  heading a moment ++ ifStatistics a summary ++ fileList a ++ exclusionList a ++
    ["## Similarity Results", ""] ++ matrixSection a ++ comparisonTable a ++
    ifStatistics a statisticsSection ++ guide ++ ifStatistics a conclusions ++
    ["---", "*Generated by codesim " ++ version ++ "*"]

def markdown (a : Analysis) (moment : Moment) : String :=
  String.join ((markdownLines a moment).map (· ++ "\n"))

end Resemblance.Report
