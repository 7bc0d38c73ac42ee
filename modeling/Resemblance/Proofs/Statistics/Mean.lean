import Resemblance.Proofs.Double.Overflow
import Resemblance.Proofs.Double.Summation
import Resemblance.Proofs.Statistics.UnitInterval

/-!
# The mean and the two ends

The least and the largest score are scores and bound all others.  The mean is
rounded after every addition and once more by the division, so it may lie
outside of the two, even if all scores are equal.  It does not lie further
outside than one part in two to the fifty-third for every score, and not at all
where the multiples of the ends need no rounding.
-/

namespace Resemblance

open Double Decimal Float.Model

section Ends

/-- A choice that is related to both of its arguments, repeated over a list. -/
theorem foldl_bounds
    {α : Type} {choose : α → α → α} {p : α → Prop} {R : α → α → Prop}
    (hrefl : ∀ x, p x → R x x)
    (htrans : ∀ x y z, R x y → R y z → R x z)
    (hchoose : ∀ x y, p x → p y →
      p (choose x y) ∧ R (choose x y) x ∧ R (choose x y) y)
    {x : α} {xs : List α}
    (hx : p x)
    (hxs : ∀ y ∈ xs, p y) :
    ∀ y ∈ x :: xs, R (xs.foldl choose x) y := by
  induction xs generalizing x with
  | nil =>
      intro y hy
      rw [List.mem_singleton.1 hy]
      exact hrefl x hx
  | cons z xs ih =>
      obtain ⟨hnext, hleft, hright⟩ := hchoose x z hx (hxs z List.mem_cons_self)
      have hbounds := ih hnext fun y hy => hxs y (List.mem_cons_of_mem z hy)
      have hfirst := hbounds _ List.mem_cons_self
      intro y hy
      rcases List.mem_cons.1 hy with rfl | hlater
      · exact htrans _ _ _ hfirst hleft
      · rcases List.mem_cons.1 hlater with rfl | hlast
        · exact htrans _ _ _ hfirst hright
        · exact hbounds y (List.mem_cons_of_mem _ hlast)

theorem Double.HasValue.between_infinities
    {x : Float} {r : ℝ}
    (hx : HasValue x r) :
    x ≤ Score.infinity ∧ -Score.infinity ≤ x := by
  obtain ⟨x', hx', hrank, hnan⟩ := hx.exists_denotes
  obtain ⟨hbelow, habove⟩ := hx'.between_infinities
  rw [Score.le_iff] at hbelow habove
  rw [Score.le_iff, Score.le_iff, hrank]
  exact ⟨⟨hnan, hbelow.2⟩, habove.1, hnan, habove.2.2⟩

/-- Both ends are scores and no score is beyond them. -/
theorem Range.ends_spec
    {scores : List Float}
    (hne : scores ≠ [])
    (hscores : ∀ x ∈ scores, ComparisonSettings.inUnit x = true) :
    (Range.ofScores scores).min ∈ scores ∧
      (Range.ofScores scores).max ∈ scores ∧
      ∀ x ∈ scores, (Range.ofScores scores).min ≤ x ∧
        x ≤ (Range.ofScores scores).max := by
  have hdefined : ∀ x ∈ scores, x.isNaN = false :=
    fun x hx => isNaN_of_inUnit (hscores x hx)
  cases scores with
  | nil => exact absurd rfl hne
  | cons x xs =>
      have hbetween :=
        (hasValue_value (hscores x List.mem_cons_self)).between_infinities
      obtain ⟨hmin, hmax⟩ := Range.ends_cons hbetween xs
      have hx := hdefined x List.mem_cons_self
      have hxs : ∀ y ∈ xs, y.isNaN = false :=
        fun y hy => hdefined y (List.mem_cons_of_mem x hy)
      rw [hmin, hmax]
      refine ⟨foldl_mem_cons Score.smaller_eq_or_eq x xs,
        foldl_mem_cons Score.larger_eq_or_eq x xs, fun y hy => ⟨?_, ?_⟩⟩
      · exact foldl_bounds (R := fun y z => y ≤ z) (fun _ => Score.le_refl)
          (fun _ _ _ => Score.le_trans)
          (fun _ _ => Score.smaller_spec) hx hxs y hy
      · exact foldl_bounds (R := fun y z => z ≤ y) (fun _ => Score.le_refl)
          (fun _ _ _ hyx hzy => Score.le_trans hzy hyx)
          (fun _ _ => Score.larger_spec) hx hxs y hy

end Ends

section Mean

variable {scores : List Float}

theorem inUnit_value
    {x : Float}
    (hx : ComparisonSettings.inUnit x = true) :
    IsDouble (value x) ∧ 0 ≤ value x ∧ value x ≤ 1 := by
  have hvalue := hasValue_value hx
  exact ⟨hvalue.isDouble, hvalue.nonneg, hvalue.inUnit_iff.1 hx⟩

theorem isDouble_of_mem_map_value
    (hscores : ∀ x ∈ scores, ComparisonSettings.inUnit x = true) :
    ∀ s ∈ scores.map value, IsDouble s ∧ 0 ≤ s :=
  List.forall_mem_map.2 fun x hx =>
    (inUnit_value (hscores x hx)).imp_right And.left

theorem roundedSum_value_le
    (hscores : ∀ x ∈ scores, ComparisonSettings.inUnit x = true) :
    roundedSum (scores.map value) ≤ 2 ^ (53 : ℤ) := by
  have hone : ∀ s ∈ scores.map value, s ≤ 1 :=
    List.forall_mem_map.2 fun x hx => (inUnit_value (hscores x hx)).2.2
  calc roundedSum (scores.map value)
      ≤ (min (scores.map value).length (2 ^ 53) : ℕ) :=
        roundedSum_le_min (isDouble_of_mem_map_value hscores) hone
    _ ≤ 2 ^ (53 : ℤ) := by exact_mod_cast min_le_right _ _

/-- Adding doubles is adding their values and rounding every sum. -/
theorem denotes_sum
    (hscores : ∀ x ∈ scores, ComparisonSettings.inUnit x = true) :
    Denotes (scores.foldl (· + ·) 0.0) (roundedSum (scores.map value)) := by
  induction scores using List.reverseRecOn with
  | nil => exact .zero
  | append_singleton scores x ih =>
      have hx := hscores x (List.mem_append_right scores List.mem_cons_self)
      have hbefore := fun y hy => hscores y (List.mem_append_left [x] hy)
      rw [List.foldl_append, List.map_append, List.map_singleton,
        roundedSum_concat]
      apply (ih hbefore).add_hasValue (hasValue_value hx)
      calc roundedSum (scores.map value) + value x ≤ 2 ^ (53 : ℤ) + 1 :=
            add_le_add (roundedSum_value_le hbefore) (inUnit_value hx).2.2
        _ ≤ 2 ^ (54 : ℤ) := by norm_num
        _ < 2 ^ (1023 : ℤ) := by gcongr <;> norm_num

theorem denotes_mean
    (hne : scores ≠ [])
    (hscores : ∀ x ∈ scores, ComparisonSettings.inUnit x = true)
    (hcount : Denotes (nearestNat scores.length) (rounded scores.length)) :
    Denotes (Range.ofScores scores).mean (roundedMean (scores.map value)) := by
  have hone := one_le_rounded_natCast (List.length_pos_iff.2 hne)
  have hsum := denotes_sum hscores
  rw [roundedMean, List.length_map]
  apply hsum.div hcount (zero_lt_one.trans_le hone)
  calc roundedSum (scores.map value) / rounded scores.length
      ≤ roundedSum (scores.map value) := div_le_self hsum.nonneg hone
    _ ≤ 2 ^ (53 : ℤ) := roundedSum_value_le hscores
    _ < 2 ^ (1023 : ℤ) := by gcongr <;> norm_num

/-- A count that rounds to infinity leaves nothing of the mean. -/
theorem mean_eq_zero
    (hscores : ∀ x ∈ scores, ComparisonSettings.inUnit x = true)
    (hcount : nearestNat scores.length = Score.infinity) :
    (Range.ofScores scores).mean = 0.0 := by
  rw [Range.ofScores, hcount]
  exact (denotes_sum hscores).div_infinity

/-- The mean is the mean of the values, rounded at every step, unless the count
is infinite. -/
theorem exists_mean
    (hne : scores ≠ [])
    (hscores : ∀ x ∈ scores, ComparisonSettings.inUnit x = true) :
    ∃ μ, HasValue (Range.ofScores scores).mean μ ∧
      (scores.length ≤ 2 ^ 53 → μ = roundedMean (scores.map value)) ∧
      ∀ a b, 0 ≤ a → (∀ x ∈ scores, a ≤ value x) → (∀ x ∈ scores, value x ≤ b) →
        rounded (a / roundingFactor ^ scores.length) ≤ μ ∧
          μ ≤ rounded (b * roundingFactor ^ scores.length) := by
  have hvalues := isDouble_of_mem_map_value hscores
  have hne' : scores.map value ≠ [] := by rwa [ne_eq, List.map_eq_nil_iff]
  have hlength : (scores.map value).length = scores.length := List.length_map _
  rcases nearestNat_denotes_or_infinite scores.length with
    ⟨hcount, -⟩ | ⟨hcount, hlarge⟩
  · refine ⟨_, .denoted (denotes_mean hne hscores hcount), fun _ => rfl, ?_⟩
    intro a b ha hbelow habove
    rw [← hlength]
    exact ⟨le_roundedMean hne' hvalues (List.forall_mem_map.2 hbelow) ha,
      roundedMean_le hne' hvalues (List.forall_mem_map.2 habove)⟩
  · -- The mean is zero here, and dividing by the factor of so many roundings
    -- gives zero as well.
    refine ⟨0, ?_, ?_, ?_⟩
    · rw [mean_eq_zero hscores hcount]
      exact .denoted .zero
    · intro hexact
      rw [rounded_natCast hexact] at hlarge
      have hsmall : ((2 ^ 53 : ℕ) : ℝ) < 2 ^ (1024 : ℤ) := by
        calc ((2 ^ 53 : ℕ) : ℝ) = 2 ^ (53 : ℤ) := by norm_num
          _ < 2 ^ (1024 : ℤ) := by gcongr <;> norm_num
      exact absurd (hlarge.trans (by exact_mod_cast hexact)) (not_le.2 hsmall)
    · intro a b ha hbelow habove
      obtain ⟨x, hx⟩ := List.exists_mem_of_ne_nil scores hne
      have hone := (hbelow x hx).trans (inUnit_value (hscores x hx)).2.2
      rw [rounded_div_pow_eq_zero ha hone hlarge]
      exact ⟨le_rfl, rounded_nonneg _⟩

end Mean

section Ranges

variable {scores : List Float}

/-- What the mean of scores is, how far it may lie beyond the ends, and when it
does not. -/
structure Range.MeanNearEnds
    (range : Range) (scores : List Float) (a μ b : ℝ) : Prop where
  min : HasValue range.min a
  mean : HasValue range.mean μ
  max : HasValue range.max b
  mean_eq : scores.length ≤ 2 ^ 53 → μ = roundedMean (scores.map value)
  lower : rounded (a / roundingFactor ^ scores.length) ≤ μ
  upper : μ ≤ rounded (b * roundingFactor ^ scores.length)
  min_le_mean : scores.length ≤ 2 ^ 53 →
    (∀ k ≤ scores.length, IsDouble (k * a)) →
    range.min ≤ range.mean
  mean_le_max : scores.length ≤ 2 ^ 53 →
    (∀ k ≤ scores.length, IsDouble (k * b)) →
    range.mean ≤ range.max

/-- Twice a double is a double, so two scores have their mean between the
ends. -/
theorem Range.MeanNearEnds.between
    {range : Range} {a μ b : ℝ}
    (hnear : range.MeanNearEnds scores a μ b)
    (htwo : scores.length ≤ 2) :
    range.min ≤ range.mean ∧ range.mean ≤ range.max := by
  have hexact : scores.length ≤ 2 ^ 53 := htwo.trans (by norm_num)
  exact ⟨hnear.min_le_mean hexact fun k hk =>
    hnear.min.isDouble.natCast_mul (hk.trans htwo),
    hnear.mean_le_max hexact fun k hk =>
      hnear.max.isDouble.natCast_mul (hk.trans htwo)⟩

theorem Range.exists_meanNearEnds
    (hne : scores ≠ [])
    (hscores : ∀ x ∈ scores, ComparisonSettings.inUnit x = true) :
    ∃ a μ b, (Range.ofScores scores).MeanNearEnds scores a μ b := by
  obtain ⟨hmin, hmax, hbounds⟩ := Range.ends_spec hne hscores
  obtain ⟨μ, hμ, hshort, hdrift⟩ := exists_mean hne hscores
  have hvalue : ∀ x ∈ scores, HasValue x (value x) :=
    fun x hx => hasValue_value (hscores x hx)
  have hvalues := isDouble_of_mem_map_value hscores
  have hbelow : ∀ x ∈ scores,
      value (Range.ofScores scores).min ≤ value x := fun x hx =>
    ((hvalue _ hmin).le_iff (hvalue x hx)).1 (hbounds x hx).1
  have habove : ∀ x ∈ scores,
      value x ≤ value (Range.ofScores scores).max := fun x hx =>
    ((hvalue x hx).le_iff (hvalue _ hmax)).1 (hbounds x hx).2
  have hne' : scores.map value ≠ [] := by rwa [ne_eq, List.map_eq_nil_iff]
  have hlength : (scores.map value).length = scores.length := List.length_map _
  obtain ⟨hlower, hupper⟩ := hdrift _ _ (hvalue _ hmin).nonneg hbelow habove
  refine ⟨_, μ, _, hvalue _ hmin, hμ, hvalue _ hmax, hshort, hlower, hupper,
    ?_, ?_⟩
  · intro hexact hmultiples
    rw [(hvalue _ hmin).le_iff hμ, hshort hexact]
    exact le_roundedMean_of_multiples hne' hvalues
      (List.forall_mem_map.2 hbelow)
      (hvalue _ hmin).nonneg (hlength.trans_le hexact) (hlength ▸ hmultiples)
  · intro hexact hmultiples
    rw [hμ.le_iff (hvalue _ hmax), hshort hexact]
    exact roundedMean_le_of_multiples hne' hvalues
      (List.forall_mem_map.2 habove)
      (hlength.trans_le hexact) (hlength ▸ hmultiples)

end Ranges

namespace Statistics

/-- In real numbers the mean would lie between the ends; the roundings let it
drift. -/
theorem aggregate_mean_near_ends
    {results : List Comparison}
    (hne : results ≠ [])
    (hscores : ∀ c ∈ results, ∀ m,
      ComparisonSettings.inUnit (c.score m) = true) :
    ∃ statistics, aggregate results = some statistics ∧ ∀ m,
      let range := statistics.range m
      (∃ c ∈ results, c.score m = range.min) ∧
        (∃ c ∈ results, c.score m = range.max) ∧
        (∀ c ∈ results, range.min ≤ c.score m ∧ c.score m ≤ range.max) ∧
        (∃ a μ b, range.MeanNearEnds (results.map (·.score m)) a μ b) ∧
        (results.length ≤ 2 →
          range.min ≤ range.mean ∧ range.mean ≤ range.max) := by
  obtain ⟨statistics, haggregate⟩ :=
    Option.isSome_iff_exists.1 ((aggregate_isSome_iff results).2 hne)
  refine ⟨statistics, haggregate, fun m => ?_⟩
  have hne' : results.map (·.score m) ≠ [] := by
    rwa [ne_eq, List.map_eq_nil_iff]
  have hscores' : ∀ x ∈ results.map (·.score m),
      ComparisonSettings.inUnit x = true :=
    List.forall_mem_map.2 fun c hc => hscores c hc m
  obtain ⟨hmin, hmax, hbounds⟩ := Range.ends_spec hne' hscores'
  obtain ⟨a, μ, b, hnear⟩ := Range.exists_meanNearEnds hne' hscores'
  rw [(aggregate_eq_some_iff.1 haggregate).2.2 m]
  refine ⟨List.mem_map.1 hmin, List.mem_map.1 hmax,
    List.forall_mem_map.1 hbounds, ⟨a, μ, b, hnear⟩,
    fun htwo => hnear.between ?_⟩
  rwa [List.length_map]

/-- Three results with the same scores. -/
def threeAlike : List Comparison :=
  List.replicate 3
    { fileA := "a.py", fileB := "b.py", cosine := 0.1, jaccard := 0.7,
      levenshtein := 0.5 }

theorem inUnit_threeAlike :
    ∀ c ∈ threeAlike, ∀ m, ComparisonSettings.inUnit (c.score m) = true := by
  intro c hc m
  rw [(List.mem_replicate.1 hc).2]
  cases m <;> decide +kernel

/-- Two of them have their mean between the ends, and the mean of all three
is as near to the ends as three roundings leave it. -/
theorem aggregate_mean_near_ends_alike :
    (∃ statistics, aggregate (threeAlike.take 2) = some statistics ∧
      ∀ m, (statistics.range m).min ≤ (statistics.range m).mean ∧
        (statistics.range m).mean ≤ (statistics.range m).max) ∧
      ∃ statistics, aggregate threeAlike = some statistics ∧
        ∀ m, ∃ a μ b,
          HasValue (statistics.range m).min a ∧
            HasValue (statistics.range m).mean μ ∧
            HasValue (statistics.range m).max b ∧
            rounded (a / roundingFactor ^ 3) ≤ μ ∧
            μ ≤ rounded (b * roundingFactor ^ 3) := by
  have hscores : ∀ c ∈ threeAlike.take 2, ∀ m,
      ComparisonSettings.inUnit (c.score m) = true :=
    fun c hc => inUnit_threeAlike c (List.mem_of_mem_take hc)
  constructor
  · obtain ⟨statistics, haggregate, hranges⟩ :=
      aggregate_mean_near_ends (by decide : threeAlike.take 2 ≠ []) hscores
    refine ⟨statistics, haggregate, fun m => ?_⟩
    obtain ⟨-, -, -, -, hshort⟩ := hranges m
    exact hshort le_rfl
  · obtain ⟨statistics, haggregate, hranges⟩ :=
      aggregate_mean_near_ends (by decide : threeAlike ≠ []) inUnit_threeAlike
    refine ⟨statistics, haggregate, fun m => ?_⟩
    obtain ⟨-, -, -, ⟨a, μ, b, hnear⟩, -⟩ := hranges m
    exact ⟨a, μ, b, hnear.min, hnear.mean, hnear.max, hnear.lower, hnear.upper⟩

/-- Three tenths are summed to more than three times a tenth, and three times
seven tenths to less. -/
theorem aggregate_mean_outside_ends :
    (∀ c ∈ threeAlike, ∀ m, ComparisonSettings.inUnit (c.score m) = true) ∧
      ∃ statistics, aggregate threeAlike = some statistics ∧
        ¬ statistics.cosine.mean ≤ statistics.cosine.max ∧
        ¬ statistics.jaccard.min ≤ statistics.jaccard.mean := by
  refine ⟨inUnit_threeAlike, _, rfl, ?_⟩
  decide +kernel

end Statistics

end Resemblance
