import Resemblance.Proofs.Comparison.Rounding
import Resemblance.Report.Csv

/-!
# What the cells of the report show

A stored score is written with the digits of the score before it was stored.
With four places kept, the report for spreadsheets is therefore the one that
the unrounded scores would give.
-/

namespace Resemblance.Report

open Comparison Decimal Double

theorem csvRow_rounded
    {c : Comparison}
    (hscores : ∀ m, InUnitOrUndefined (c.score m)) :
    csvRow (c.rounded 4) = csvRow c := by
  have hcell : ∀ m,
      fixed 4 (roundTo (c.score m) 4) = fixed 4 (c.score m) := fun m =>
    (hscores m).fixed_roundTo (by decide)
  have hcosine := hcell .cosine
  have hjaccard := hcell .jaccard
  have hlevenshtein := hcell .levenshtein
  simp only [Comparison.score] at hcosine hjaccard hlevenshtein
  simp only [csvRow, Comparison.rounded, hcosine, hjaccard, hlevenshtein]

section Runs

variable {s : ComparisonSettings} {files : List TokenizedFile}

theorem csvRow_of_mem_located
    (hvalid : s.fault? = none)
    (hplaces : s.precision = 4)
    {c : Located files.length}
    (hc : c ∈ located s files) :
    csvRow c.comparison = csvRow c.unrounded := by
  rw [(comparison_of_mem_located hvalid hc).1, hplaces, c.unrounded_eq_direct]
  exact csvRow_rounded (inUnitOrUndefined_score_direct _ _)

/-- Up to ten places of a score of the unit interval survive when it is stored,
and with four places the report shows the unrounded scores. -/
theorem storing_keeps_digits :
    (∀ (x : Float) (places : Nat),
      ComparisonSettings.inUnit x = true → places ≤ 10 →
      ∃ (r v : ℝ) (k : ℕ), HasValue x r ∧ k = nearestEven (r * 10 ^ places) ∧
        HasValue (roundTo x places) v ∧ IsDouble v ∧
        (∀ t, IsDouble t → t ≠ v →
          |v - k / 10 ^ places| < |t - k / 10 ^ places|) ∧
        (∃ negative, (negative = true → x = -0.0) ∧
          fixed places x = signed negative (pointed k places)) ∧
        fixed places (roundTo x places) = fixed places x ∧
        roundTo (roundTo x places) places = roundTo x places) ∧
      ∀ (s : ComparisonSettings) (files : List TokenizedFile) (a : Analysis),
        compareAll s files = .ok a.results → s.precision = 4 →
        csv a = String.ofList (Csv.document
          (["File A", "File B", "Cosine", "Jaccard", "Levenshtein"].map
            (·.toList) ::
            (located s files).map (fun c =>
              [c.unrounded.fileA.toList, c.unrounded.fileB.toList,
                fixed 4 c.unrounded.cosine, fixed 4 c.unrounded.jaccard,
                fixed 4 c.unrounded.levenshtein]) ++
            [[], ["=== STATISTICS ===".toList]] ++
              (a.statistics.map csvStatistics).getD [])) := by
  constructor
  · intro x places hx hplaces
    obtain ⟨r, hr, hone⟩ := inUnit_iff.1 hx
    have hstored := hr.roundTo hone hplaces
    exact ⟨r, _, _, hr, rfl, hstored, hstored.isDouble,
      fun t ht hne => hr.abs_sub_lt_of_ne hone hplaces ht hne,
      hr.exists_fixed_eq places, hr.fixed_roundTo hone hplaces,
      hr.roundTo_roundTo hone hplaces⟩
  · intro s files a hrun hplaces
    have hvalid := (compareAll_eq_ok_iff.1 hrun).2.1
    have hrows : a.results.map csvRow =
        (located s files).map fun c => csvRow c.unrounded := by
      rw [eq_map_located hrun, List.map_map]
      exact List.map_congr_left fun c hc =>
        csvRow_of_mem_located hvalid hplaces hc
    rw [csv, csvRecords, hrows]
    rfl

/-- A tie stored with four places, and the rows of three files. -/
theorem storing_keeps_digits_namesakes :
    fixed 4 (roundTo 0.03125 4) = "0.0312".toList ∧
      ∃ a : Analysis, compareAll {} namesakes = .ok a.results ∧
        a.results.length = 3 ∧
        csv a = String.ofList (Csv.document
          (["File A", "File B", "Cosine", "Jaccard", "Levenshtein"].map
            (·.toList) ::
            (located {} namesakes).map (fun c =>
              [c.unrounded.fileA.toList, c.unrounded.fileB.toList,
                fixed 4 c.unrounded.cosine, fixed 4 c.unrounded.jaccard,
                fixed 4 c.unrounded.levenshtein]) ++
            [[], ["=== STATISTICS ===".toList]])) := by
  obtain ⟨hscores, hrows⟩ := storing_keeps_digits
  obtain ⟨r, v, k, -, -, -, -, -, -, hdigits, -⟩ :=
    hscores 0.03125 4 (by decide +kernel) (by decide)
  have hanalysis : ∀ results, ∃ a : Analysis, a.results = results ∧
      a.statistics = none :=
    fun results => ⟨⟨[], [], results, none⟩, rfl, rfl⟩
  obtain ⟨a, hresults, hnone⟩ := hanalysis (retained {} namesakes)
  have hrun : compareAll {} namesakes = .ok a.results :=
    compareAll_eq_ok_iff.2 ⟨by decide, by decide, hresults⟩
  have hlength : a.results.length = 3 := by
    rw [hresults]
    decide +kernel
  have hshown := hrows {} namesakes a hrun rfl
  rw [hnone, Option.map_none, Option.getD_none, List.append_nil] at hshown
  exact ⟨hdigits.trans (by decide +kernel), a, hrun, hlength, hshown⟩

end Runs

end Resemblance.Report
