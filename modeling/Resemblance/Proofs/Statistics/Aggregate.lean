import Resemblance.Statistics

/-!
# What statistics are made of

Statistics exist for every list of comparisons but the empty one.  They count
the comparisons and hold one range for each metric, taken over the scores of
that metric in the order of the list.
-/

namespace Resemblance.Statistics

variable {results : List Comparison} {statistics : Statistics}

theorem aggregate_isSome_iff (results : List Comparison) :
    (aggregate results).isSome = true ↔ results ≠ [] := by
  cases results <;> simp [aggregate]

theorem aggregate_eq_some_iff :
    aggregate results = some statistics ↔
      results ≠ [] ∧ statistics.totalPairs = results.length ∧
        ∀ m, statistics.range m = Range.ofScores (results.map (·.score m)) := by
  cases results with
  | nil => simp [aggregate]
  | cons c results =>
      obtain ⟨cosine, jaccard, levenshtein, total⟩ := statistics
      simp only [aggregate, List.isEmpty_cons, Bool.false_eq_true, if_false,
        Option.some.injEq, mk.injEq, ne_eq, List.cons_ne_nil, not_false_eq_true,
        true_and]
      constructor
      · rintro ⟨rfl, rfl, rfl, rfl⟩
        refine ⟨rfl, fun m => ?_⟩
        cases m <;> rfl
      · rintro ⟨rfl, hrange⟩
        exact ⟨(hrange .cosine).symm, (hrange .jaccard).symm,
          (hrange .levenshtein).symm, rfl⟩

theorem totalPairs_of_aggregate
    (haggregate : aggregate results = some statistics) :
    statistics.totalPairs = results.length :=
  (aggregate_eq_some_iff.1 haggregate).2.1

end Resemblance.Statistics
