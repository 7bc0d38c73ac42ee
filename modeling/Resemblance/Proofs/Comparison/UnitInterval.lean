import Resemblance.Proofs.Comparison.Copies
import Resemblance.Proofs.Comparison.Outcome
import Resemblance.Proofs.Decimal.Places
import Resemblance.Proofs.Measure.UnitInterval
import Resemblance.Proofs.Statistics.UnitInterval

/-!
# Scores in the unit interval

All scores of two files lie in the unit interval, before and after they are
rounded.  Every pair therefore reaches a threshold of zero and is kept, and the
statistics of what is kept stay in the interval too.
-/

namespace Resemblance

namespace Comparison

open Double

section Scores

variable {a b : TokenizedFile}

theorem score_rounded
    (c : Comparison)
    (places : Nat)
    (m : Metric) :
    (c.rounded places).score m = Decimal.roundTo (c.score m) places := by
  cases m <;> rfl

theorem inUnit_score_direct
    (ha : a.tokens.length < 2 ^ 32)
    (ha' : a.flat.length < 2 ^ 53)
    (hb : b.tokens.length < 2 ^ 32)
    (hb' : b.flat.length < 2 ^ 53)
    (m : Metric) :
    InUnit ((direct a b).score m) := by
  have hterms : ∀ f : TokenizedFile, f.terms.length = f.tokens.length :=
    fun _ => List.length_map _
  rw [← hterms] at ha hb
  rw [a.flat_eq] at ha'
  rw [b.flat_eq] at hb'
  cases m with
  | cosine => exact inUnit_cosine ha hb
  | jaccard => exact inUnit_jaccard ha hb
  | levenshtein =>
      exact inUnit_editRatio (ha'.trans (by norm_num)) (hb'.trans (by norm_num))

theorem inUnit_score_of_entry
    {threshold : Float} {places : Nat} {c : Comparison}
    (hscores : ∀ m, InUnit ((direct a b).score m))
    (hplaces : places ≤ 10)
    (hentry : entry threshold places a b = some c)
    (m : Metric) :
    InUnit (c.score m) := by
  obtain ⟨-, rfl⟩ := entry_eq_some_iff.1 hentry
  rw [score_rounded]
  exact (hscores m).roundTo (hplaces.trans (by norm_num))

/-- No score lies below a threshold of zero. -/
theorem entry_of_threshold_le_zero
    {threshold : Float}
    (hscores : ∀ m, InUnit ((direct a b).score m))
    (hthreshold : threshold ≤ 0.0)
    (places : Nat) :
    entry threshold places a b = some ((direct a b).rounded places) := by
  have hcosine : threshold ≤ (direct a b).cosine :=
    Score.le_trans hthreshold (hscores .cosine).zero_le
  rw [entry_eq, if_pos (.inl hcosine)]

end Scores

section Runs

variable {s : ComparisonSettings} {files : List TokenizedFile}

theorem inUnit_score_of_mem_retained
    (hvalid : s.fault? = none)
    (hscores : ∀ (i j : Fin files.length) m,
      InUnit ((direct (files.get i) (files.get j)).score m))
    {c : Comparison}
    (hc : c ∈ retained s files)
    (m : Metric) :
    InUnit (c.score m) := by
  obtain ⟨i, j, -, hentry⟩ := exists_entry_of_mem_retained hvalid hc
  have hplaces := (ComparisonSettings.bounds_of_valid hvalid).2
  exact inUnit_score_of_entry (hscores i j) hplaces hentry m

theorem length_retained_of_threshold_le_zero
    (hvalid : s.fault? = none)
    (hscores : ∀ (i j : Fin files.length) m,
      InUnit ((direct (files.get i) (files.get j)).score m))
    (hthreshold : s.threshold ≤ 0.0) :
    (retained s files).length = pairCount files.length := by
  have hentries : ∀ i j : Fin files.length,
      entry s.threshold s.precision files[i] files[j] =
        some ((direct files[i] files[j]).rounded s.precision) :=
    fun i j => entry_of_threshold_le_zero (hscores i j) hthreshold s.precision
  rw [retained_eq_naive hvalid, ← length_pairIndices, pairIndices_eq, naive]
  simp only [hentries, List.filterMap_eq_map', List.length_flatMap,
    List.length_map]

theorem length_retained_le
    (s : ComparisonSettings)
    (files : List TokenizedFile) :
    (retained s files).length ≤ pairCount files.length := by
  rw [← length_pairIndices]
  simp only [retained, gather_eq_map, List.filterMap_map]
  exact List.length_filterMap_le _ _

theorem natCast_pairCount_lt
    {n : Nat}
    (hn : n < 2 ^ 53) :
    (pairCount n : ℝ) < 2 ^ (1023 : ℤ) := by
  have hcount : pairCount n < 2 ^ 106 := by
    calc pairCount n ≤ n * (n - 1) := Nat.div_le_self _ _
      _ ≤ n * n := Nat.mul_le_mul_left n (Nat.sub_le n 1)
      _ < 2 ^ 53 * 2 ^ 53 := Nat.mul_lt_mul'' hn hn
      _ = 2 ^ 106 := by norm_num
  exact natCast_lt_two_zpow hcount (by norm_num)

/-- No score, before or after rounding, and no statistic of kept scores is
undefined or outside the unit interval, as long as every list is shorter than
two to the fifty-third. -/
theorem compareAll_in_unit
    (hmany : 2 ≤ files.length)
    (hfiles : files.length < 2 ^ 53)
    (hvalid : s.fault? = none)
    (htokens : ∀ f ∈ files, f.tokens.length < 2 ^ 32)
    (hflat : ∀ f ∈ files, f.flat.length < 2 ^ 53) :
    (∀ (i j : Fin files.length) (m : Metric),
      let raw := unrounded (files.get i) (files.get j)
        (files.get i).frequency (files.get j).frequency
      ComparisonSettings.inUnit (raw.score m) = true ∧
        ComparisonSettings.inUnit ((raw.rounded s.precision).score m) = true) ∧
      ∃ results, compareAll s files = .ok results ∧
        (∀ c ∈ results, ∀ m, ComparisonSettings.inUnit (c.score m) = true) ∧
        (s.threshold ≤ 0.0 →
          results.length = files.length * (files.length - 1) / 2) ∧
        (results ≠ [] → ∃ statistics,
          Statistics.aggregate results = some statistics ∧
          statistics.totalPairs = results.length ∧
          ∀ m, ComparisonSettings.inUnit (statistics.range m).min = true ∧
            ComparisonSettings.inUnit (statistics.range m).mean = true ∧
            ComparisonSettings.inUnit (statistics.range m).max = true) := by
  have hscores : ∀ (i j : Fin files.length) m,
      InUnit ((direct (files.get i) (files.get j)).score m) := by
    intro i j
    have hi : files.get i ∈ files := List.get_mem _ _
    have hj : files.get j ∈ files := List.get_mem _ _
    exact inUnit_score_direct (htokens _ hi) (hflat _ hi)
      (htokens _ hj) (hflat _ hj)
  have hplaces := (ComparisonSettings.bounds_of_valid hvalid).2
  have hkept := fun c (hc : c ∈ retained s files) =>
    inUnit_score_of_mem_retained hvalid hscores hc
  refine ⟨?_, retained s files, compareAll_eq_ok_iff.2 ⟨hmany, hvalid, rfl⟩,
    ?_, ?_, ?_⟩
  · intro i j m raw
    have hdirect : raw = direct (files.get i) (files.get j) :=
      unrounded_frequency _ _
    have hraw : InUnit (raw.score m) := by
      rw [hdirect]
      exact hscores i j m
    have hstored : InUnit ((raw.rounded s.precision).score m) := by
      rw [score_rounded]
      exact hraw.roundTo (hplaces.trans (by norm_num))
    exact ⟨hraw.inUnit_eq_true, hstored.inUnit_eq_true⟩
  · intro c hc m
    exact (hkept c hc m).inUnit_eq_true
  · exact length_retained_of_threshold_le_zero hvalid hscores
  · intro hne
    obtain ⟨statistics, hstatistics⟩ :=
      Option.isSome_iff_exists.1 ((Statistics.aggregate_isSome_iff _).2 hne)
    have hmany' : ((retained s files).length : ℝ) < 2 ^ (1023 : ℤ) :=
      lt_of_le_of_lt (by exact_mod_cast length_retained_le s files)
        (natCast_pairCount_lt hfiles)
    refine ⟨statistics, hstatistics,
      Statistics.totalPairs_of_aggregate hstatistics, ?_⟩
    intro m
    obtain ⟨hmin, hmean, hmax⟩ :=
      Statistics.inUnit_range hstatistics hkept hmany' m
    exact ⟨hmin.inUnit_eq_true, hmean.inUnit_eq_true, hmax.inUnit_eq_true⟩

end Runs

section Empty

/-- The pairs with the empty file score zero and are kept where nothing is asked
of a pair. -/
theorem compareAll_all_namesakes :
    ∃ results statistics, compareAll {} namesakes = .ok results ∧
      results.length = 3 ∧
      Statistics.aggregate results = some statistics ∧
        statistics.totalPairs = 3 ∧
      ComparisonSettings.inUnit statistics.cosine.mean = true := by
  obtain ⟨-, results, hrun, -, hall, hstatistics⟩ := compareAll_in_unit
    (by decide : 2 ≤ namesakes.length) (by decide)
    (by decide : ({} : ComparisonSettings).fault? = none)
    (by decide) (by decide)
  have hlength : results.length = 3 := hall (by decide)
  have hne : results ≠ [] := List.ne_nil_of_length_eq_add_one hlength
  obtain ⟨statistics, haggregate, htotal, hunit⟩ := hstatistics hne
  exact ⟨results, statistics, hrun, hlength, haggregate, htotal.trans hlength,
    (hunit .cosine).2.1⟩

end Empty

end Comparison

end Resemblance
