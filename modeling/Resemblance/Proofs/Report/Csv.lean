import Resemblance.Proofs.Csv.Reading
import Resemblance.Proofs.Decimal.Printed
import Resemblance.Report.Csv

/-!
# Reading the report for spreadsheets

Whatever the files are called, the report has exactly one reading.  It gives
back the names as they are and every score with four decimals.
-/

namespace Resemblance.Report

open Decimal

/-- The names of the statistics as the report shows them, in the order of their
entries. -/
def statisticsTitles : List String :=
  ["Cosine Mean", "Cosine Min", "Cosine Max", "Jaccard Mean", "Jaccard Min",
    "Jaccard Max",
    "Levenshtein Mean", "Levenshtein Min", "Levenshtein Max", "Total Pairs"]

theorem map_fst_entries (s : Statistics) :
    s.entries.map (·.1) =
      ["cosine_mean", "cosine_min", "cosine_max", "jaccard_mean", "jaccard_min",
        "jaccard_max",
        "levenshtein_mean", "levenshtein_min", "levenshtein_max",
          "total_pairs"] := rfl

theorem map_titleCase_entries (s : Statistics) :
    s.entries.map (fun entry => titleCase entry.1.toList) =
      statisticsTitles.map (·.toList) := by
  have hkeys : s.entries.map (fun entry => titleCase entry.1.toList) =
      (s.entries.map (·.1)).map fun key => titleCase key.toList := by
    rw [List.map_map]
    rfl
  rw [hkeys, map_fst_entries]
  decide +kernel

theorem csvStatistics_eq (s : Statistics) :
    csvStatistics s =
      (statisticsTitles.zip s.entries).map fun (title, _, x) =>
        [title.toList, fixed 4 x] := by
  let row : List Char × String × Float → List (List Char) :=
    fun (title, _, x) => [title, fixed 4 x]
  calc csvStatistics s
      = ((s.entries.map fun entry => titleCase entry.1.toList).zip
        s.entries).map row := by
        rw [← List.map_prod_right_eq_zip, List.map_map]
        rfl
    _ = ((statisticsTitles.map (·.toList)).zip s.entries).map row := by
        rw [map_titleCase_entries]
    _ = _ := by
        rw [List.zip_map_left, List.map_map]
        rfl

theorem map_seen_csvRecords (a : Analysis) :
    (csvRecords a).map Csv.seen =
      csvHeader :: a.results.map csvRow ++
        [[[]], ["=== STATISTICS ===".toList]] ++
        a.statistics.elim [] csvStatistics := by
  have hrows : (a.results.map csvRow).map Csv.seen = a.results.map csvRow := by
    simp [Csv.seen, csvRow, Function.comp_def]
  have hstatistics (s : Statistics) : (csvStatistics s).map Csv.seen =
      csvStatistics s := by
    simp [Csv.seen, csvStatistics, Function.comp_def]
  unfold csvRecords
  cases a.statistics with
  | none => simp [hrows, Csv.seen, csvHeader]
  | some s => simp [hrows, hstatistics, Csv.seen, csvHeader]

/-- The header, one record for each result, an empty one, and the statistics if
there are any.  Numbers are printed with four decimals. -/
theorem csv_has_one_reading (a : Analysis) :
    let expected : List (List (List Char)) :=
      ["File A", "File B", "Cosine", "Jaccard", "Levenshtein"].map (·.toList) ::
        a.results.map (fun c =>
          [c.fileA.toList, c.fileB.toList, fixed 4 c.cosine, fixed 4 c.jaccard,
            fixed 4 c.levenshtein]) ++
        [[[]], ["=== STATISTICS ===".toList]] ++
        a.statistics.elim [] fun s =>
          (statisticsTitles.zip s.entries).map fun (title, _, x) =>
            [title.toList, fixed 4 x]
    Csv.read? (csv a).toList = some expected ∧
      (∀ records,
        Csv.DocumentText records (csv a).toList ↔ records = expected) ∧
      (∀ s : Statistics, s.entries.length = 10) ∧
      ∀ (x : Float) (t : List Char), Prints 4 x t ↔ t = fixed 4 x := by
  intro expected
  have hread : Csv.read? (csv a).toList = some expected := by
    rw [csv, String.toList_ofList, Csv.read?_document, map_seen_csvRecords,
      funext csvStatistics_eq]
    rfl
  refine ⟨hread, fun records => ?_, fun s => rfl, fun x t => ?_⟩
  · rw [← Csv.read?_eq_some_iff, hread, Option.some.injEq, eq_comm]
  · exact prints_iff (by decide)

section OddNames

/-- Names with the special characters and scores that four decimals cut. -/
def oddResults : List Comparison :=
  [⟨"a,b.py", " \"c\"\r\n.py", 0.33333, 0.03125, 1.0⟩,
    ⟨"a,b.py", "", -0.0, 0.00016, 0.99996⟩]

def oddNames : Analysis where
  files := ["a,b.py", " \"c\"\r\n.py", ""].map fun id =>
    ⟨id, Path.displayName id, .python, 1⟩
  excluded := []
  results := oddResults
  statistics := Statistics.aggregate oddResults

theorem csv_reading_of_odd_names :
    Csv.read? (csv oddNames).toList = some
      ([["File A", "File B", "Cosine", "Jaccard", "Levenshtein"],
        ["a,b.py", " \"c\"\r\n.py", "0.3333", "0.0312", "1.0000"],
        ["a,b.py", "", "-0.0000", "0.0002", "1.0000"],
        [""], ["=== STATISTICS ==="],
        ["Cosine Mean", "0.1667"], ["Cosine Min", "-0.0000"],
        ["Cosine Max", "0.3333"], ["Jaccard Mean", "0.0157"],
        ["Jaccard Min", "0.0002"], ["Jaccard Max", "0.0312"],
        ["Levenshtein Mean", "1.0000"], ["Levenshtein Min", "1.0000"],
        ["Levenshtein Max", "1.0000"], ["Total Pairs", "2.0000"]].map
          (·.map (·.toList))) := by
  obtain ⟨hread, -⟩ := csv_has_one_reading oddNames
  rw [hread]
  decide +kernel

end OddNames

end Resemblance.Report
