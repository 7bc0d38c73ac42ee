import Resemblance.Proofs.Comparison.Copies
import Resemblance.Proofs.Comparison.Outcome
import Resemblance.Proofs.Comparison.Positions
import Resemblance.Proofs.Decimal.Stored
import Resemblance.Proofs.Measure.AnyLength

/-!
# Stored scores and the threshold

The threshold is compared with scores that are not rounded, and the kept scores
are rounded afterwards.  Rounding keeps the order, so the largest stored score
is the largest score, stored, and it reaches the threshold as soon as that is
rounded, too.
-/

namespace Resemblance

namespace Comparison

open Decimal Double

section Scores

theorem inUnit_cosine_direct (a b : TokenizedFile) :
    InUnit (direct a b).cosine :=
  cosine_inUnit _ _

theorem inUnitOrUndefined_score_direct
    (a b : TokenizedFile)
    (m : Metric) :
    InUnitOrUndefined ((direct a b).score m) := by
  cases m with
  | cosine => exact .inUnit (inUnit_cosine_direct a b)
  | jaccard => exact jaccard_inUnitOrUndefined _ _
  | levenshtein => exact editRatio_inUnitOrUndefined _ _

variable {c : Comparison} {places : Nat}

theorem inUnit_maxScore
    (hcosine : InUnit c.cosine)
    (hscores : ∀ m, InUnitOrUndefined (c.score m)) :
    InUnit c.maxScore :=
  (hcosine.larger (hscores .jaccard)).larger (hscores .levenshtein)

theorem maxScore_rounded
    (hcosine : InUnit c.cosine)
    (hscores : ∀ m, InUnitOrUndefined (c.score m))
    (hplaces : places ≤ 10) :
    (c.rounded places).maxScore = roundTo c.maxScore places := by
  have hjaccard : InUnitOrUndefined c.jaccard := hscores .jaccard
  have hlevenshtein : InUnitOrUndefined c.levenshtein := hscores .levenshtein
  unfold maxScore
  rw [← (hcosine.larger hjaccard).larger_roundTo hlevenshtein hplaces,
    ← hcosine.larger_roundTo hjaccard hplaces]
  rfl

end Scores

section Runs

/-- The scores of the two files before they were rounded. -/
def Located.unrounded
    {files : List TokenizedFile} (c : Located files.length) : Comparison :=
  Comparison.unrounded (files.get c.first) (files.get c.second)
    (files.get c.first).frequency (files.get c.second).frequency

variable {s : ComparisonSettings} {files : List TokenizedFile}
  {results : List Comparison}

theorem Located.unrounded_eq_direct (c : Located files.length) :
    c.unrounded = direct (files.get c.first) (files.get c.second) :=
  unrounded_frequency _ _

theorem eq_map_located
    (hrun : compareAll s files = .ok results) :
    results = (located s files).map (·.comparison) := by
  obtain ⟨-, hvalid, rfl⟩ := compareAll_eq_ok_iff.1 hrun
  exact retained_eq_located hvalid files

/-- A kept comparison is the rounded one of its two files, which reaches the
threshold. -/
theorem comparison_of_mem_located
    (hvalid : s.fault? = none)
    {c : Located files.length}
    (hc : c ∈ located s files) :
    c.comparison = c.unrounded.rounded s.precision ∧
      s.threshold ≤ c.unrounded.maxScore := by
  obtain ⟨-, hentry⟩ := (mem_located_iff hvalid c).1 hc
  obtain ⟨hreaches, hkept⟩ := entry_eq_some_iff.1 hentry
  have hcosine :=
    (inUnit_cosine_direct (files.get c.first)
      (files.get c.second)).isNaN_eq_false
  rw [c.unrounded_eq_direct]
  exact ⟨hkept.symm, (le_maxScore_iff hcosine s.threshold).2 hreaches⟩

/-- The largest stored score is the largest score, stored, and the rounded
threshold is below. -/
theorem maxScore_of_mem_located
    (hvalid : s.fault? = none)
    {c : Located files.length}
    (hc : c ∈ located s files) :
    c.comparison.maxScore = roundTo c.unrounded.maxScore s.precision ∧
      roundTo s.threshold s.precision ≤ c.comparison.maxScore := by
  obtain ⟨hkept, hreaches⟩ := comparison_of_mem_located hvalid hc
  have hplaces := (ComparisonSettings.bounds_of_valid hvalid).2
  rw [c.unrounded_eq_direct] at hkept hreaches ⊢
  have hcosine := inUnit_cosine_direct (files.get c.first) (files.get c.second)
  have hscores :=
    inUnitOrUndefined_score_direct (files.get c.first) (files.get c.second)
  have hlargest := (inUnit_maxScore hcosine hscores).inUnit_eq_true
  rw [hkept, maxScore_rounded hcosine hscores hplaces]
  exact ⟨rfl,
    roundTo_le_roundTo (ComparisonSettings.inUnit_threshold hvalid) hlargest
      hreaches hplaces⟩

/-- The threshold is the cosine of two files, which is stored without decimal
places. -/
def wholeScores : ComparisonSettings := { halfway with precision := 0 }

theorem exists_maxScore_lt_threshold :
    ∃ results, compareAll wholeScores namesakes = .ok results ∧
      ∃ c ∈ results, c.maxScore < wholeScores.threshold := by
  refine ⟨retained wholeScores namesakes,
    compareAll_eq_ok_iff.2 ⟨by decide, by decide, rfl⟩, ?_⟩
  decide +kernel

/-- Scores keep their order when they are rounded, so what is kept for its
unrounded scores is as large as the rounded threshold, if not always as the
threshold. -/
theorem rounding_keeps_order :
    (∀ (x y : Float) (places : Nat),
      ComparisonSettings.inUnit x = true → ComparisonSettings.inUnit y = true →
        x ≤ y → places ≤ 10 →
        roundTo x places ≤ roundTo y places ∧
          ComparisonSettings.inUnit (roundTo x places) = true ∧
          ComparisonSettings.inUnit (roundTo y places) = true) ∧
      (∀ (s : ComparisonSettings) (files : List TokenizedFile)
          (results : List Comparison),
        compareAll s files = .ok results →
        results = (located s files).map (·.comparison) ∧
          ∀ c ∈ located s files,
            c.comparison = c.unrounded.rounded s.precision ∧
              c.comparison.maxScore = roundTo c.unrounded.maxScore s.precision ∧
              roundTo s.threshold s.precision ≤ c.comparison.maxScore) ∧
      ∃ (s : ComparisonSettings) (files : List TokenizedFile)
          (results : List Comparison),
        compareAll s files = .ok results ∧
          ∃ c ∈ results, c.maxScore < s.threshold := by
  refine ⟨?_, ?_, wholeScores, namesakes, exists_maxScore_lt_threshold⟩
  · intro x y places hx hy hle hplaces
    exact ⟨roundTo_le_roundTo hx hy hle hplaces, inUnit_roundTo hx hplaces,
      inUnit_roundTo hy hplaces⟩
  · intro s files results hrun
    have hvalid := (compareAll_eq_ok_iff.1 hrun).2.1
    refine ⟨eq_map_located hrun,
      fun c hc => ⟨?_, maxScore_of_mem_located hvalid hc⟩⟩
    exact (comparison_of_mem_located hvalid hc).1

theorem rounding_keeps_order_namesakes :
    (-0.0 : Float) ≤ 0.125 ∧ roundTo (-0.0) 2 ≤ roundTo 0.125 2 ∧
      ∃ c ∈ located wholeScores namesakes, c.comparison.maxScore < 0.5 ∧
        roundTo 0.5 0 ≤ c.comparison.maxScore := by
  have hle : (-0.0 : Float) ≤ 0.125 := by decide +kernel
  obtain ⟨hpairs, hruns, -⟩ := rounding_keeps_order
  obtain ⟨results, hrun, kept, hkept, hbelow⟩ := exists_maxScore_lt_threshold
  obtain ⟨hresults, hall⟩ := hruns wholeScores namesakes results hrun
  rw [hresults, List.mem_map] at hkept
  obtain ⟨c, hc, rfl⟩ := hkept
  exact ⟨hle,
    (hpairs (-0.0) 0.125 2 (by decide +kernel) (by decide +kernel) hle
      (by decide)).1,
    c, hc, hbelow, (hall c hc).2.2⟩

end Runs

end Comparison

end Resemblance
