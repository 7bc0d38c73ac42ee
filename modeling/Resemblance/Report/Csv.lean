import Resemblance.Analysis
import Resemblance.Csv
import Resemblance.Decimal.Fixed

/-!
# The report for spreadsheets

One record for each result, an empty record, and the statistics by name.
-/

namespace Resemblance.Report

open Decimal

/-- Writes the words of a key with capitals and spaces. -/
def titleCase (key : List Char) : List Char :=
  [' '].intercalate ((Text.splitAt '_' key).map fun word =>
    match word with
    | [] => []
    | c :: rest => c.toUpper :: rest)

def csvHeader : List (List Char) :=
  ["File A", "File B", "Cosine", "Jaccard", "Levenshtein"].map (·.toList)

def csvRow (c : Comparison) : List (List Char) :=
  [c.fileA.toList, c.fileB.toList, fixed 4 c.cosine, fixed 4 c.jaccard,
    fixed 4 c.levenshtein]

def csvStatistics (s : Statistics) : List (List (List Char)) :=
  s.entries.map fun (key, x) => [titleCase key.toList, fixed 4 x]

def csvRecords (a : Analysis) : List (List (List Char)) :=
  csvHeader :: a.results.map csvRow ++ [[], ["=== STATISTICS ===".toList]] ++
    (a.statistics.map csvStatistics).getD []

def csv (a : Analysis) : String := String.ofList (Csv.document (csvRecords a))

end Resemblance.Report
