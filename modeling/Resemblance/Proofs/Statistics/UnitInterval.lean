import Resemblance.Proofs.Double.Order
import Resemblance.Proofs.Statistics.Aggregate

/-!
# Statistics in the unit interval

The least and the largest of scores of the unit interval are two of these
scores.  Their sum is rounded after every score and still does not exceed their
number, so the mean stays in the interval as well, however many they are.
-/

namespace Resemblance

open Double Decimal

section Ends

/-- A choice between two scores, repeated over a list, ends with one of them. -/
theorem foldl_mem_cons
    {α : Type} {choose : α → α → α}
    (hchoose : ∀ x y, choose x y = x ∨ choose x y = y)
    (x : α)
    (xs : List α) :
    xs.foldl choose x ∈ x :: xs := by
  induction xs generalizing x with
  | nil => exact List.mem_cons_self
  | cons y xs ih =>
      have hmem := ih (choose x y)
      rw [List.foldl_cons]
      rcases List.mem_cons.1 hmem with hnext | hlater
      · rw [hnext]
        rcases hchoose x y with hx | hy
        · rw [hx]
          exact List.mem_cons_self
        · rw [hy]
          exact List.mem_cons_of_mem x List.mem_cons_self
      · exact List.mem_cons_of_mem x (List.mem_cons_of_mem y hlater)

theorem Score.smaller_eq_or_eq (x y : Float) :
    Score.smaller x y = x ∨ Score.smaller x y = y := by
  unfold Score.smaller
  split_ifs <;> simp

theorem Score.larger_eq_or_eq (x y : Float) :
    Score.larger x y = x ∨ Score.larger x y = y := by
  unfold Score.larger
  split_ifs <;> simp

theorem Double.Denotes.level_bounds
    {x : Float} {r : ℝ}
    (hx : Denotes x r) :
    0 ≤ (Score.rank x).level ∧ (Score.rank x).level ≤ 1 := by
  cases hx with
  | zero => exact ⟨le_rfl, zero_le_one⟩
  | finite m e hm hc hhigh =>
      rw [rank_finite hc hhigh]
      exact ⟨zero_le_one, le_rfl⟩

/-- The two infinities that the ends start from give way to every score. -/
theorem Double.Denotes.between_infinities
    {x : Float} {r : ℝ}
    (hx : Denotes x r) :
    x ≤ Score.infinity ∧ -Score.infinity ≤ x := by
  have hinfinity : Score.infinity.isNaN = false := by decide +kernel
  have hnegative : (-Score.infinity).isNaN = false := by decide +kernel
  have hrank : Score.rank Score.infinity = ⟨2, 0, 0⟩ := by rfl
  have hrank' : Score.rank (-Score.infinity) = ⟨-2, 0, 0⟩ := by rfl
  obtain ⟨hlow, hhigh⟩ := hx.level_bounds
  rw [Score.le_iff, Score.le_iff, hrank, hrank']
  refine ⟨⟨hx.isNaN_eq_false, hinfinity, .inl ?_⟩,
    ⟨hnegative, hx.isNaN_eq_false, .inl ?_⟩⟩
  · exact hhigh.trans_lt one_lt_two
  · exact lt_of_lt_of_le (by norm_num) hlow

/-- The first score takes the place of the infinities. -/
theorem Range.ends_cons
    {x : Float}
    (hx : x ≤ Score.infinity ∧ -Score.infinity ≤ x)
    (xs : List Float) :
    (Range.ofScores (x :: xs)).min = xs.foldl Score.smaller x ∧
      (Range.ofScores (x :: xs)).max = xs.foldl Score.larger x := by
  have hmin : Score.smaller Score.infinity x = x := by
    simp only [Score.smaller, hx.1, if_true, ite_self]
  have hmax : Score.larger (-Score.infinity) x = x := by
    simp only [Score.larger, hx.2, if_true, ite_self]
  simp only [ofScores, List.foldl_cons, hmin, hmax, and_self]

theorem Range.ends_mem
    {scores : List Float}
    (hne : scores ≠ [])
    (hscores : ∀ x ∈ scores, InUnit x) :
    (Range.ofScores scores).min ∈ scores ∧
      (Range.ofScores scores).max ∈ scores := by
  cases scores with
  | nil => exact absurd rfl hne
  | cons x xs =>
      obtain ⟨hr, -⟩ := hscores x List.mem_cons_self
      obtain ⟨hmin, hmax⟩ := Range.ends_cons hr.between_infinities xs
      rw [hmin, hmax]
      exact ⟨foldl_mem_cons Score.smaller_eq_or_eq x xs,
        foldl_mem_cons Score.larger_eq_or_eq x xs⟩

end Ends

section Mean

variable {scores : List Float}

/-- The sum of scores is at most their number, counted on from a sum that is. -/
theorem denotes_foldl_add
    (hscores : ∀ x ∈ scores, InUnit x)
    {sum : Float} {r : ℝ} {k : ℕ}
    (hsum : Denotes sum r)
    (hbound : r ≤ (min k (2 ^ 53) : ℕ)) :
    ∃ total, Denotes (scores.foldl (· + ·) sum) total ∧
      total ≤ (min (k + scores.length) (2 ^ 53) : ℕ) := by
  -- The bound keeps two to the fifty-third beside the count, since above it a
  -- whole number need not be a double and the count alone would not survive the
  -- rounding.
  induction scores generalizing sum r k with
  | nil => exact ⟨r, hsum, hbound⟩
  | cons x scores ih =>
      cases hscores x List.mem_cons_self with
      | @of s hx hone =>
          have hnext := rounded_add_le hsum.nonneg hbound hx.nonneg hone
          have hrange : r + s < 2 ^ (1023 : ℤ) := by
            calc r + s ≤ 2 ^ (53 : ℤ) + 1 := by
                  gcongr
                  exact hbound.trans (by exact_mod_cast min_le_right k (2 ^ 53))
              _ ≤ 2 ^ (54 : ℤ) := by norm_num
              _ < 2 ^ (1023 : ℤ) := by gcongr <;> norm_num
          obtain ⟨total, htotal, hle⟩ :=
            ih (fun y hy => hscores y (List.mem_cons_of_mem x hy))
              (hsum.add hx hrange) hnext
          refine ⟨total, htotal, ?_⟩
          rwa [List.length_cons, ← Nat.add_assoc, Nat.add_right_comm]

theorem inUnit_mean
    (hne : scores ≠ [])
    (hscores : ∀ x ∈ scores, InUnit x)
    (hmany : (scores.length : ℝ) < 2 ^ (1023 : ℤ)) :
    InUnit (Range.ofScores scores).mean := by
  have hpos : 0 < scores.length := List.length_pos_iff.2 hne
  have hstart : (0 : ℝ) ≤ (min 0 (2 ^ 53) : ℕ) := by norm_num
  obtain ⟨total, htotal, hbound⟩ := denotes_foldl_add hscores .zero hstart
  rw [Nat.zero_add] at hbound
  have hcount : total ≤ scores.length :=
    hbound.trans (by exact_mod_cast min_le_left _ _)
  apply htotal.inUnit_div (denotes_nearestNat hmany)
  · exact zero_lt_one.trans_le (one_le_rounded_natCast hpos)
  · calc total = rounded total := htotal.rounded_eq.symm
      _ ≤ rounded scores.length := rounded_mono htotal.nonneg hcount

end Mean

theorem Statistics.inUnit_range
    {results : List Comparison} {statistics : Statistics}
    (haggregate : aggregate results = some statistics)
    (hscores : ∀ c ∈ results, ∀ m, InUnit (c.score m))
    (hmany : (results.length : ℝ) < 2 ^ (1023 : ℤ))
    (m : Metric) :
    InUnit (statistics.range m).min ∧ InUnit (statistics.range m).mean ∧
      InUnit (statistics.range m).max := by
  obtain ⟨hne, -, hrange⟩ := aggregate_eq_some_iff.1 haggregate
  have hne' : results.map (·.score m) ≠ [] := by
    rwa [ne_eq, List.map_eq_nil_iff]
  have hscores' : ∀ x ∈ results.map (·.score m), InUnit x :=
    List.forall_mem_map.2 fun c hc => hscores c hc m
  obtain ⟨hmin, hmax⟩ := Range.ends_mem hne' hscores'
  rw [hrange m]
  refine ⟨hscores' _ hmin, ?_, hscores' _ hmax⟩
  apply inUnit_mean hne' hscores'
  rwa [List.length_map]

end Resemblance
