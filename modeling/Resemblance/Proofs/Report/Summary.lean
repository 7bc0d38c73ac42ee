import Resemblance.Proofs.Statistics.Mean
import Resemblance.Report.Markdown

/-!
# The most similar pair of the summary

The summary walks once over the results and keeps the first one whose largest
score exceeds all before it.  The statistics take the largest score of each
metric by itself.  As the largest score of a result is a score of one metric,
both walks end at the same number, unless all scores are zero and the summary
names no pair.
-/

namespace Resemblance

open Double

theorem Comparison.maxScore_spec
    {c : Comparison}
    (hscores : ∀ m, ComparisonSettings.inUnit (c.score m) = true) :
    c.maxScore.isNaN = false ∧ (∃ m, c.score m = c.maxScore) ∧
      ∀ m, c.score m ≤ c.maxScore := by
  have hnan : ∀ m, (c.score m).isNaN = false :=
    fun m => isNaN_of_inUnit (hscores m)
  obtain ⟨htwo, hcosine, hjaccard⟩ :=
    Score.larger_spec (hnan .cosine) (hnan .jaccard)
  obtain ⟨hdefined, hpair, hlevenshtein⟩ :=
    Score.larger_spec htwo (hnan .levenshtein)
  refine ⟨hdefined, ?_, fun m => ?_⟩
  · rcases Score.larger_eq_or_eq (Score.larger c.cosine c.jaccard)
      c.levenshtein with hmax | hmax
    · rcases Score.larger_eq_or_eq c.cosine c.jaccard with hfirst | hsecond
      · exact ⟨.cosine, (hmax.trans hfirst).symm⟩
      · exact ⟨.jaccard, (hmax.trans hsecond).symm⟩
    · exact ⟨.levenshtein, hmax.symm⟩
  · cases m with
    | cosine => exact Score.le_trans hcosine hpair
    | jaccard => exact Score.le_trans hjaccard hpair
    | levenshtein => exact hlevenshtein

namespace Report

section FirstLargest

variable {results : List Comparison} {b c d : Comparison}

/-- No result has a larger score, and those before it have only smaller ones. -/
def IsFirstLargest (results : List Comparison) (c : Comparison) : Prop :=
  ∃ before after, results = before ++ c :: after ∧
    (∀ b ∈ before, b.maxScore < c.maxScore) ∧
      ∀ b ∈ after, b.maxScore ≤ c.maxScore

theorem IsFirstLargest.mem (hc : IsFirstLargest results c) : c ∈ results := by
  obtain ⟨before, after, rfl, -, -⟩ := hc
  exact List.mem_append_right before List.mem_cons_self

theorem IsFirstLargest.le
    (hc : IsFirstLargest results c)
    (hdefined : c.maxScore.isNaN = false)
    (hb : b ∈ results) :
    b.maxScore ≤ c.maxScore := by
  obtain ⟨before, after, rfl, hbefore, hafter⟩ := hc
  rcases List.mem_append.1 hb with hearlier | hlater
  · exact Score.le_of_lt (hbefore b hearlier)
  · rcases List.mem_cons.1 hlater with rfl | hlater
    · exact Score.le_refl hdefined
    · exact hafter b hlater

theorem IsFirstLargest.concat
    (hc : IsFirstLargest results c)
    (hd : d.maxScore ≤ c.maxScore) :
    IsFirstLargest (results ++ [d]) c := by
  obtain ⟨before, after, rfl, hbefore, hafter⟩ := hc
  refine ⟨before, after ++ [d], by simp, hbefore, fun b hb => ?_⟩
  rcases List.mem_append.1 hb with hb | hb
  · exact hafter b hb
  · rwa [List.mem_singleton.1 hb]

theorem isFirstLargest_concat (hd : ∀ b ∈ results, b.maxScore < d.maxScore) :
    IsFirstLargest (results ++ [d]) d :=
  ⟨results, [], rfl, hd, fun _ hb => absurd hb List.not_mem_nil⟩

end FirstLargest

variable {results : List Comparison}

theorem mostSimilar?_concat
    (results : List Comparison)
    (d : Comparison) :
    mostSimilar? (results ++ [d]) =
      if ((mostSimilar? results).map (·.maxScore)).getD 0.0 < d.maxScore then
        some d
      else mostSimilar? results := by
  rw [mostSimilar?, List.foldl_append]
  rfl

/-- The walk has found nothing above zero, or the first of the largest scores so
far. -/
theorem mostSimilar?_spec (hdefined : ∀ c ∈ results, c.maxScore.isNaN = false) :
    (mostSimilar? results = none ∧ ∀ c ∈ results, c.maxScore ≤ 0.0) ∨
      ∃ c, mostSimilar? results = some c ∧ 0.0 < c.maxScore ∧
        IsFirstLargest results c := by
  induction results using List.reverseRecOn with
  | nil => exact .inl ⟨rfl, fun _ hc => absurd hc List.not_mem_nil⟩
  | append_singleton results d ih =>
      have hd := hdefined d (List.mem_append_right results List.mem_cons_self)
      have hearlier : ∀ c ∈ results, c.maxScore.isNaN = false :=
        fun c hc => hdefined c (List.mem_append_left [d] hc)
      rcases ih hearlier with ⟨hnone, hzero⟩ | ⟨c, hfound, hpositive, hlargest⟩
      · by_cases hmore : 0.0 < d.maxScore
        · refine .inr ⟨d, ?_, hmore, isFirstLargest_concat fun b hb => ?_⟩
          · rw [mostSimilar?_concat, hnone]
            exact if_pos hmore
          · exact Score.lt_of_le_of_lt (hzero b hb) hmore
        · refine .inl ⟨?_, fun b hb => ?_⟩
          · rw [mostSimilar?_concat, hnone]
            exact if_neg hmore
          · rcases List.mem_append.1 hb with hb | hb
            · exact hzero b hb
            · rw [List.mem_singleton.1 hb]
              exact (Score.not_lt_iff rfl hd).1 hmore
      · have hc := hearlier c hlargest.mem
        by_cases hmore : c.maxScore < d.maxScore
        · refine .inr
            ⟨d, ?_, Score.lt_of_le_of_lt (Score.le_of_lt hpositive) hmore,
            isFirstLargest_concat fun b hb =>
              Score.lt_of_le_of_lt (hlargest.le hc hb) hmore⟩
          rw [mostSimilar?_concat, hfound]
          exact if_pos hmore
        · refine .inr
            ⟨c, ?_, hpositive,
              hlargest.concat ((Score.not_lt_iff hc hd).1 hmore)⟩
          rw [mostSimilar?_concat, hfound]
          exact if_neg hmore

section Statistics

variable {s : Statistics} {c : Comparison}

theorem range_max_spec
    (haggregate : Statistics.aggregate results = some s)
    (hscores : ∀ c ∈ results, ∀ m, ComparisonSettings.inUnit (c.score m) = true)
    (m : Metric) :
    (∃ c ∈ results, c.score m = (s.range m).max) ∧
      ∀ c ∈ results, c.score m ≤ (s.range m).max := by
  obtain ⟨hne, -, hrange⟩ := Statistics.aggregate_eq_some_iff.1 haggregate
  have hne' : results.map (·.score m) ≠ [] := by
    rwa [ne_eq, List.map_eq_nil_iff]
  obtain ⟨-, hmax, hbounds⟩ := Range.ends_spec hne'
    (List.forall_mem_map.2 fun c hc => hscores c hc m)
  rw [hrange m]
  exact ⟨List.mem_map.1 hmax,
    fun c hc => (hbounds _ (List.mem_map_of_mem hc)).2⟩

/-- The largest over the metrics of the largest over the results is the other
way round as well. -/
theorem IsFirstLargest.largest_range_max
    (hc : IsFirstLargest results c)
    (haggregate : Statistics.aggregate results = some s)
    (hscores : ∀ c ∈ results, ∀ m, ComparisonSettings.inUnit (c.score m) = true)
    (hpositive : 0.0 < c.maxScore) :
    (∃ m, (s.range m).max = c.maxScore) ∧
      ∀ m, (s.range m).max ≤ c.maxScore := by
  obtain ⟨hdefined, ⟨m, hm⟩, -⟩ := Comparison.maxScore_spec (hscores c hc.mem)
  have habove : ∀ m, (s.range m).max ≤ c.maxScore := by
    intro m
    obtain ⟨⟨d, hd, hmax⟩, -⟩ := range_max_spec haggregate hscores m
    rw [← hmax]
    obtain ⟨-, -, hbelow⟩ := Comparison.maxScore_spec (hscores d hd)
    exact Score.le_trans (hbelow m) (hc.le hdefined hd)
  refine ⟨⟨m, ?_⟩, habove⟩
  obtain ⟨⟨d, hd, hmax⟩, hbelow⟩ := range_max_spec haggregate hscores m
  have hunit : ComparisonSettings.inUnit (s.range m).max = true :=
    hmax ▸ hscores d hd m
  rw [← hm] at hpositive habove ⊢
  exact (eq_of_le_of_ge (hscores c hc.mem m) hunit hpositive (hbelow c hc.mem)
    (habove m)).symm

/-- The line about a pair is the only part of the summary that sees more than
the statistics. -/
theorem exists_summary_eq
    (results : List Comparison)
    (s : Statistics) :
    ∃ lines, summary [] s = lines ++ [""] ∧
      summary results s =
        lines ++ ((mostSimilar? results).map mostSimilarLine).toList ++ [""] :=
  ⟨["## Executive Summary", "",
    "- **Overall similarity level:** " ++
      strong (SimilarityLevel.ofScore s.overallMean).label ++
      " (" ++ decimals 3 s.overallMean ++ ")",
    "- **Interpretation:** " ++
      interpretation (SimilarityLevel.ofScore s.overallMean),
    "- **Most discriminating metric:** " ++ metricTitle s.mostDiscriminating],
      rfl, rfl⟩

/-- The named pair is the first one whose largest score is the largest of the
three that the statistics show, and this score is printed behind it. -/
theorem summary_names_first_largest
    (hscores : ∀ c ∈ results, ∀ m, ComparisonSettings.inUnit (c.score m) = true)
    (hpositive : ∃ c ∈ results, ∃ m, 0.0 < c.score m) :
    ∃ (s : Statistics) (top : Float) (before after : List Comparison)
        (c : Comparison),
      Statistics.aggregate results = some s ∧
        (∃ m, (s.range m).max = top) ∧ (∀ m, (s.range m).max ≤ top) ∧
        results = before ++ c :: after ∧ c.maxScore = top ∧
          (∀ b ∈ before, b.maxScore < top) ∧
        mostSimilar? results = some c ∧
        ∃ lines, summary [] s = lines ++ [""] ∧
          summary results s =
            lines ++
              ["- **Most similar files:** " ++
                  code (Path.displayName c.fileA) ++ " and " ++
                  code (Path.displayName c.fileB) ++
                  " (" ++ decimals 3 top ++ ")",
                ""] := by
  obtain ⟨d, hd, m, hsome⟩ := hpositive
  obtain ⟨s, haggregate⟩ :=
    Option.isSome_iff_exists.1
      ((Statistics.aggregate_isSome_iff results).2 (List.ne_nil_of_mem hd))
  obtain ⟨lines, hlines, hsummary⟩ := exists_summary_eq results s
  rcases mostSimilar?_spec fun c hc =>
    (Comparison.maxScore_spec (hscores c hc)).1 with
    ⟨-, hzero⟩ | ⟨c, hfound, hmore, hlargest⟩
  · obtain ⟨-, -, hbelow⟩ := Comparison.maxScore_spec (hscores d hd)
    have hnone : d.score m ≤ 0.0 := Score.le_trans (hbelow m) (hzero d hd)
    have hdefined : (d.score m).isNaN = false :=
      isNaN_of_inUnit (hscores d hd m)
    exact absurd hsome ((Score.not_lt_iff rfl hdefined).2 hnone)
  · obtain ⟨hreached, hbounds⟩ :=
      hlargest.largest_range_max haggregate hscores hmore
    obtain ⟨before, after, hsplit, hbefore, -⟩ := hlargest
    refine ⟨s, c.maxScore, before, after, c, haggregate, hreached, hbounds,
      hsplit, rfl, hbefore, hfound, lines, hlines, ?_⟩
    rw [hsummary, hfound, List.append_assoc]
    rfl

/-- A pair without likeness, two that share their largest score in different
metrics, and one below them. -/
def sharedLargest : List Comparison :=
  [("b.py", 0.0, -0.0, 0.0), ("c.py", 0.25, 0.75, 0.5),
    ("d.py", 0.75, 0.5, 0.25),
    ("e.py", 0.5, 0.625, 0.5)].map fun (name, cosine, jaccard, levenshtein) =>
      { fileA := "src/a.py", fileB := name, cosine, jaccard, levenshtein }

/-- The earlier of the two is named. -/
theorem summary_names_sharedLargest :
    (∀ c ∈ sharedLargest, ∀ m, ComparisonSettings.inUnit (c.score m) = true) ∧
      (∃ c ∈ sharedLargest, ∃ m, 0.0 < c.score m) ∧
      ∃ s, Statistics.aggregate sharedLargest = some s ∧
        "- **Most similar files:** `a.py` and `c.py` (0.750)" ∈
          summary sharedLargest s := by
  have hscores : ∀ c ∈ sharedLargest, ∀ m,
      ComparisonSettings.inUnit (c.score m) = true := by
    intro c hc m
    simp only [sharedLargest, List.map_cons, List.map_nil, List.mem_cons,
      List.not_mem_nil, or_false] at hc
    rcases hc with rfl | rfl | rfl | rfl <;> cases m <;> decide +kernel
  have hpositive : ∃ c ∈ sharedLargest, ∃ m, 0.0 < c.score m :=
    ⟨_, List.mem_cons_of_mem _ List.mem_cons_self, .jaccard, by decide +kernel⟩
  obtain ⟨s, top, -, -, c, haggregate, -, -, -, htop, -, hfound, lines, -,
    hsummary⟩ :=
    summary_names_first_largest hscores hpositive
  refine ⟨hscores, hpositive, s, haggregate, ?_⟩
  have hline : (mostSimilar? sharedLargest).map mostSimilarLine =
      some "- **Most similar files:** `a.py` and `c.py` (0.750)" := by
    decide +kernel
  rw [hfound, Option.map_some, Option.some.injEq] at hline
  rw [hsummary, ← htop, ← hline]
  exact List.mem_append_right lines List.mem_cons_self

end Statistics

end Report

end Resemblance
