import Resemblance.Proofs.Double.Closest

/-!
# Sums that are rounded after every addition

Where doubles are densest their sums are doubles, so a rounded sum of two is off
by one part in two to the fifty-third at most.  Over a list these parts add up
to a power.  A bound whose multiples are doubles is never passed.
-/

namespace Resemblance.Double

noncomputable section

section Addition

/-- The most by which rounding enlarges or diminishes a number that is not too
small. -/
def roundingFactor : ℝ := 1 + 1 / (2 ^ 53 : ℕ)

theorem one_lt_roundingFactor : 1 < roundingFactor := by
  unfold roundingFactor
  norm_num

theorem roundingFactor_pos : 0 < roundingFactor :=
  zero_lt_one.trans one_lt_roundingFactor

variable {x y : ℝ}

theorem rounded_bounds (hx : (2 : ℝ) ^ (-1022 : ℤ) ≤ x) :
    rounded x ≤ x * roundingFactor ∧ x ≤ rounded x * roundingFactor := by
  have hpos : 0 < x := lt_of_lt_of_le (by positivity) hx
  have hlog : -1022 ≤ Int.log 2 x :=
    (Int.zpow_le_iff_le_log one_lt_two hpos).1 (by simpa using hx)
  have hplace : lastPlace x = Int.log 2 x - 52 := max_eq_left (by omega)
  have hpower : (2 : ℝ) ^ Int.log 2 x ≤ rounded x := by
    calc (2 : ℝ) ^ Int.log 2 x = rounded (2 ^ Int.log 2 x) :=
          (rounded_two_zpow (by omega)).symm
      _ ≤ rounded x := rounded_mono (by positivity) (zpow_log_le hpos)
  have hunit : (2 : ℝ) ^ lastPlace x / 2 = 2 ^ Int.log 2 x / 2 ^ 53 := by
    rw [hplace, zpow_sub₀ two_ne_zero, div_div]
    norm_num
  have herror := abs_le.1 (abs_rounded_sub_le hpos.le)
  rw [hunit] at herror
  have hlower : (2 : ℝ) ^ Int.log 2 x / 2 ^ 53 ≤ rounded x / 2 ^ 53 := by gcongr
  have hupper : (2 : ℝ) ^ Int.log 2 x / 2 ^ 53 ≤ x / 2 ^ 53 := by
    gcongr
    exact zpow_log_le hpos
  unfold roundingFactor
  constructor <;> linarith

/-- A sum below the numbers with a full mantissa needs no rounding. -/
theorem IsDouble.add_of_lt
    (hx : IsDouble x)
    (hy : IsDouble y)
    (hnonneg : 0 ≤ x + y)
    (hsmall : x + y < 2 ^ (-1022 : ℤ)) :
    IsDouble (x + y) := by
  obtain ⟨n, hn⟩ : ∃ n, n = 1074 := ⟨_, rfl⟩
  obtain ⟨k, hk⟩ := hx.exists_int hn.ge
  obtain ⟨l, hl⟩ := hy.exists_int hn.ge
  have hsum : (x + y) * 2 ^ n = (k + l : ℤ) := by
    rw [add_mul, hk, hl, Int.cast_add]
  have hscale : (0 : ℝ) < 2 ^ n := by positivity
  have hlow : (0 : ℝ) ≤ (k + l : ℤ) := by
    rw [← hsum]
    positivity
  have hhigh : ((k + l : ℤ) : ℝ) < (2 ^ 53 : ℤ) := by
    calc ((k + l : ℤ) : ℝ) < 2 ^ (-1022 : ℤ) * 2 ^ n := by
          rw [← hsum]
          gcongr
      _ = 2 ^ (52 : ℤ) := by
          rw [← zpow_natCast, ← zpow_add₀ two_ne_zero, hn]
          rfl
      _ < (2 ^ 53 : ℤ) := by norm_num
  refine isDouble_of_eq (m := k + l) (e := -n) ?_ (by omega) ?_
  · rw [abs_of_nonneg (by exact_mod_cast hlow)]
    exact_mod_cast hhigh
  · rw [zpow_neg, zpow_natCast, ← hsum]
    field_simp

theorem IsDouble.rounded_add_bounds
    (hx : IsDouble x)
    (hx' : 0 ≤ x)
    (hy : IsDouble y)
    (hy' : 0 ≤ y) :
    rounded (x + y) ≤ (x + y) * roundingFactor ∧
      x + y ≤ rounded (x + y) * roundingFactor := by
  have hsum : 0 ≤ x + y := add_nonneg hx' hy'
  rcases le_or_gt (2 ^ (-1022 : ℤ)) (x + y) with hnormal | hsmall
  · exact rounded_bounds hnormal
  · rw [(hx.add_of_lt hy hsum hsmall).rounded_eq hsum]
    exact ⟨le_mul_of_one_le_right hsum one_lt_roundingFactor.le,
      le_mul_of_one_le_right hsum one_lt_roundingFactor.le⟩

end Addition

section Lists

/-- The sum of numbers from the first to the last, rounded after every
addition. -/
def roundedSum (rs : List ℝ) : ℝ := rs.foldl (fun t s => rounded (t + s)) 0

theorem roundedSum_concat
    (rs : List ℝ)
    (s : ℝ) :
    roundedSum (rs ++ [s]) = rounded (roundedSum rs + s) := by
  simp [roundedSum]

variable {rs : List ℝ} {a b : ℝ}

/-- What every addition carries on holds of the number of summands and their
sum. -/
theorem roundedSum_induction
    {P : ℕ → ℝ → Prop}
    (hrs : ∀ s ∈ rs, IsDouble s ∧ 0 ≤ s)
    (hzero : P 0 0)
    (hstep : ∀ n t, ∀ s ∈ rs, IsDouble t → 0 ≤ t → P n t →
      P (n + 1) (rounded (t + s))) :
    IsDouble (roundedSum rs) ∧ 0 ≤ roundedSum rs ∧
      P rs.length (roundedSum rs) := by
  induction rs using List.reverseRecOn with
  | nil => exact ⟨isDouble_zero, le_rfl, hzero⟩
  | append_singleton rs s ih =>
      have hlast : s ∈ rs ++ [s] := List.mem_append_right rs List.mem_cons_self
      obtain ⟨hdouble, hnonneg, hP⟩ :=
        ih (fun u hu => hrs u (List.mem_append_left [s] hu))
          (fun n t u hu => hstep n t u (List.mem_append_left [s] hu))
      rw [roundedSum_concat, List.length_append, List.length_singleton]
      exact ⟨isDouble_rounded (add_nonneg hnonneg (hrs s hlast).2),
        rounded_nonneg _, hstep _ _ s hlast hdouble hnonneg hP⟩

theorem roundedSum_mul_le
    (hrs : ∀ s ∈ rs, IsDouble s ∧ 0 ≤ s)
    (hb : ∀ s ∈ rs, s ≤ b) :
    roundedSum rs * roundingFactor ≤
      rs.length * b * roundingFactor ^ rs.length := by
  have hfactor := roundingFactor_pos
  refine (roundedSum_induction
    (P := fun n t => t * roundingFactor ≤ n * b * roundingFactor ^ n) hrs
      (by simp) ?_).2.2
  intro n t s hs ht ht' ih
  obtain ⟨hdouble, hnonneg⟩ := hrs s hs
  have hsb := hb s hs
  have hb' := hnonneg.trans hsb
  -- The first addition is exact, which pays for the factor on the left.
  rcases Nat.eq_zero_or_pos n with rfl | hn
  · rw [Nat.cast_zero, zero_mul, zero_mul] at ih
    have hzero : t = 0 := le_antisymm (nonpos_of_mul_nonpos_left ih hfactor) ht'
    rw [hzero, zero_add, hdouble.rounded_eq hnonneg, zero_add, pow_one,
      Nat.cast_one, one_mul]
    gcongr
  · have hpower : roundingFactor ≤ roundingFactor ^ n :=
      le_self_pow₀ one_lt_roundingFactor.le hn.ne'
    calc rounded (t + s) * roundingFactor
        ≤ (t + s) * roundingFactor * roundingFactor := by
          gcongr
          exact (ht.rounded_add_bounds ht' hdouble hnonneg).1
      _ = (t * roundingFactor + s * roundingFactor) * roundingFactor := by ring
      _ ≤ (n * b * roundingFactor ^ n + b * roundingFactor ^ n) *
            roundingFactor := by
          gcongr
      _ = (n + 1 : ℕ) * b * roundingFactor ^ (n + 1) := by
          push_cast
          ring

theorem le_roundedSum_mul
    (hrs : ∀ s ∈ rs, IsDouble s ∧ 0 ≤ s)
    (ha : ∀ s ∈ rs, a ≤ s) :
    rs.length * a * roundingFactor ≤
      roundedSum rs * roundingFactor ^ rs.length := by
  have hfactor := roundingFactor_pos
  refine (roundedSum_induction
    (P := fun n t => n * a * roundingFactor ≤ t * roundingFactor ^ n) hrs
      (by simp) ?_).2.2
  intro n t s hs ht ht' ih
  obtain ⟨hdouble, hnonneg⟩ := hrs s hs
  have has := ha s hs
  rcases Nat.eq_zero_or_pos n with rfl | hn
  · have hsum : s ≤ rounded (t + s) := by
      calc s = rounded s := (hdouble.rounded_eq hnonneg).symm
        _ ≤ rounded (t + s) := rounded_mono hnonneg (le_add_of_nonneg_left ht')
    rw [zero_add, pow_one, Nat.cast_one, one_mul]
    gcongr
    exact has.trans hsum
  · have hpower : roundingFactor ≤ roundingFactor ^ n :=
      le_self_pow₀ one_lt_roundingFactor.le hn.ne'
    have hnext : a * roundingFactor ≤ s * roundingFactor ^ n := by
      calc a * roundingFactor ≤ s * roundingFactor := by gcongr
        _ ≤ s * roundingFactor ^ n := by gcongr
    calc (n + 1 : ℕ) * a * roundingFactor
        = n * a * roundingFactor + a * roundingFactor := by
          push_cast
          ring
      _ ≤ t * roundingFactor ^ n + s * roundingFactor ^ n := add_le_add ih hnext
      _ = (t + s) * roundingFactor ^ n := by ring
      _ ≤ rounded (t + s) * roundingFactor * roundingFactor ^ n := by
          gcongr
          exact (ht.rounded_add_bounds ht' hdouble hnonneg).2
      _ = rounded (t + s) * roundingFactor ^ (n + 1) := by ring

/-- As long as no multiple of a bound is rounded, no sum passes the multiple. -/
theorem roundedSum_le_of_multiples
    (hrs : ∀ s ∈ rs, IsDouble s ∧ 0 ≤ s)
    (hb : ∀ s ∈ rs, s ≤ b)
    (hmultiples : ∀ k ≤ rs.length, IsDouble (k * b)) :
    roundedSum rs ≤ rs.length * b := by
  refine (roundedSum_induction (P := fun n t => n ≤ rs.length → t ≤ n * b) hrs
    (by simp) ?_).2.2
    le_rfl
  intro n t s hs ht ht' ih hn
  have hnonneg := (hrs s hs).2
  have hsb := hb s hs
  have hb' := hnonneg.trans hsb
  have hbound : t + s ≤ (n + 1 : ℕ) * b := by
    rw [Nat.cast_succ, add_one_mul]
    exact add_le_add (ih (by omega)) hsb
  calc rounded (t + s)
      ≤ rounded ((n + 1 : ℕ) * b) :=
        rounded_mono (add_nonneg ht' hnonneg) hbound
    _ = (n + 1 : ℕ) * b := (hmultiples (n + 1) hn).rounded_eq (by positivity)

theorem le_roundedSum_of_multiples
    (hrs : ∀ s ∈ rs, IsDouble s ∧ 0 ≤ s)
    (ha : ∀ s ∈ rs, a ≤ s)
    (ha' : 0 ≤ a)
    (hmultiples : ∀ k ≤ rs.length, IsDouble (k * a)) :
    rs.length * a ≤ roundedSum rs := by
  refine (roundedSum_induction (P := fun n t => n ≤ rs.length → n * a ≤ t) hrs
    (by simp) ?_).2.2
    le_rfl
  intro n t s hs ht ht' ih hn
  have hbound : (n + 1 : ℕ) * a ≤ t + s := by
    rw [Nat.cast_succ, add_one_mul]
    exact add_le_add (ih (by omega)) (ha s hs)
  calc (n + 1 : ℕ) * a = rounded ((n + 1 : ℕ) * a) :=
        ((hmultiples (n + 1) hn).rounded_eq (by positivity)).symm
    _ ≤ rounded (t + s) := rounded_mono (by positivity) hbound

/-- Beside their number, the sum of numbers up to one is bounded by the point
where one is lost. -/
theorem roundedSum_le_min
    (hrs : ∀ s ∈ rs, IsDouble s ∧ 0 ≤ s)
    (hone : ∀ s ∈ rs, s ≤ 1) :
    roundedSum rs ≤ (min rs.length (2 ^ 53) : ℕ) := by
  refine (roundedSum_induction (P := fun n t => t ≤ (min n (2 ^ 53) : ℕ)) hrs
    (by simp) ?_).2.2
  intro n t s hs ht ht' ih
  exact rounded_add_le ht' ih (hrs s hs).2 (hone s hs)

end Lists

section Means

/-- The rounded sum divided by the rounded number of summands. -/
def roundedMean (rs : List ℝ) : ℝ := rounded (roundedSum rs / rounded rs.length)

variable {rs : List ℝ} {a b : ℝ}

theorem roundedSum_nonneg (hrs : ∀ s ∈ rs, IsDouble s ∧ 0 ≤ s) :
    0 ≤ roundedSum rs :=
  (roundedSum_induction (P := fun _ _ => True) hrs trivial
    fun _ _ _ _ _ _ _ => trivial).2.1

theorem roundedMean_le
    (hne : rs ≠ [])
    (hrs : ∀ s ∈ rs, IsDouble s ∧ 0 ≤ s)
    (hb : ∀ s ∈ rs, s ≤ b) :
    roundedMean rs ≤ rounded (b * roundingFactor ^ rs.length) := by
  have hpos : 0 < rs.length := List.length_pos_iff.2 hne
  have hfactor := roundingFactor_pos
  have hcount := (rounded_bounds (two_zpow_le_natCast hpos)).2
  have hcount' := one_le_rounded_natCast hpos
  have hsum := roundedSum_mul_le hrs hb
  obtain ⟨s, hs⟩ := List.exists_mem_of_ne_nil rs hne
  have hb' : 0 ≤ b := (hrs s hs).2.trans (hb s hs)
  apply rounded_mono (div_nonneg (roundedSum_nonneg hrs) (rounded_nonneg _))
  rw [div_le_iff₀ (zero_lt_one.trans_le hcount')]
  refine le_of_mul_le_mul_right ?_ hfactor
  calc roundedSum rs * roundingFactor
      ≤ rs.length * b * roundingFactor ^ rs.length := hsum
    _ ≤ rounded rs.length * roundingFactor * b *
          roundingFactor ^ rs.length := by gcongr
    _ = b * roundingFactor ^ rs.length * rounded rs.length *
          roundingFactor := by ring

theorem le_roundedMean
    (hne : rs ≠ [])
    (hrs : ∀ s ∈ rs, IsDouble s ∧ 0 ≤ s)
    (ha : ∀ s ∈ rs, a ≤ s)
    (ha' : 0 ≤ a) :
    rounded (a / roundingFactor ^ rs.length) ≤ roundedMean rs := by
  have hpos : 0 < rs.length := List.length_pos_iff.2 hne
  have hfactor := roundingFactor_pos
  have hcount := (rounded_bounds (two_zpow_le_natCast hpos)).1
  have hcount' := one_le_rounded_natCast hpos
  apply rounded_mono (by positivity)
  rw [div_le_div_iff₀ (by positivity) (zero_lt_one.trans_le hcount')]
  calc a * rounded rs.length ≤ a * (rs.length * roundingFactor) := by gcongr
    _ = rs.length * a * roundingFactor := by ring
    _ ≤ roundedSum rs * roundingFactor ^ rs.length := le_roundedSum_mul hrs ha

theorem roundedMean_le_of_multiples
    (hne : rs ≠ [])
    (hrs : ∀ s ∈ rs, IsDouble s ∧ 0 ≤ s)
    (hb : ∀ s ∈ rs, s ≤ b)
    (hexact : rs.length ≤ 2 ^ 53)
    (hmultiples : ∀ k ≤ rs.length, IsDouble (k * b)) :
    roundedMean rs ≤ b := by
  have hpos : 0 < rs.length := List.length_pos_iff.2 hne
  have hpos' : (0 : ℝ) < rs.length := by exact_mod_cast hpos
  obtain ⟨s, hs⟩ := List.exists_mem_of_ne_nil rs hne
  have hb' : 0 ≤ b := (hrs s hs).2.trans (hb s hs)
  have hbound : roundedSum rs / rs.length ≤ b := by
    rw [div_le_iff₀ hpos', mul_comm]
    exact roundedSum_le_of_multiples hrs hb hmultiples
  have hdouble := hmultiples 1 hpos
  rw [Nat.cast_one, one_mul] at hdouble
  rw [roundedMean, rounded_natCast hexact]
  calc rounded (roundedSum rs / rs.length) ≤ rounded b :=
        rounded_mono (div_nonneg (roundedSum_nonneg hrs) hpos'.le) hbound
    _ = b := hdouble.rounded_eq hb'

theorem le_roundedMean_of_multiples
    (hne : rs ≠ [])
    (hrs : ∀ s ∈ rs, IsDouble s ∧ 0 ≤ s)
    (ha : ∀ s ∈ rs, a ≤ s)
    (ha' : 0 ≤ a)
    (hexact : rs.length ≤ 2 ^ 53)
    (hmultiples : ∀ k ≤ rs.length, IsDouble (k * a)) :
    a ≤ roundedMean rs := by
  have hpos : 0 < rs.length := List.length_pos_iff.2 hne
  have hpos' : (0 : ℝ) < rs.length := by exact_mod_cast hpos
  have hbound : a ≤ roundedSum rs / rs.length := by
    rw [le_div_iff₀ hpos', mul_comm]
    exact le_roundedSum_of_multiples hrs ha ha' hmultiples
  have hdouble := hmultiples 1 hpos
  rw [Nat.cast_one, one_mul] at hdouble
  rw [roundedMean, rounded_natCast hexact]
  calc a = rounded a := (hdouble.rounded_eq ha').symm
    _ ≤ rounded (roundedSum rs / rs.length) := rounded_mono ha' hbound

/-- The first two multiples of a double are doubles. -/
theorem IsDouble.natCast_mul
    {s : ℝ} {k : ℕ}
    (hs : IsDouble s)
    (hk : k ≤ 2) :
    IsDouble (k * s) := by
  interval_cases k
  · rw [Nat.cast_zero, zero_mul]
    exact isDouble_zero
  · rwa [Nat.cast_one, one_mul]
  · obtain ⟨m, e, hm, he⟩ := hs
    refine isDouble_of_eq (e := e + 1) hm (by omega) ?_
    rw [zpow_add_one₀ two_ne_zero]
    push_cast
    ring

end Means

section Extremes

/-- Over two to the fifty-third roundings the factor doubles at least. -/
theorem two_pow_le_roundingFactor_pow
    {n k : ℕ}
    (hn : 2 ^ 53 * k ≤ n) :
    2 ^ k ≤ roundingFactor ^ n := by
  obtain ⟨N, hN⟩ : ∃ N : ℕ, N = 2 ^ 53 := ⟨_, rfl⟩
  have htwo : 2 ≤ roundingFactor ^ N := by
    have hbernoulli :=
      one_add_mul_le_pow (by norm_num : (-2 : ℝ) ≤ 1 / (2 ^ 53 : ℕ)) N
    have hcount : (N : ℝ) * (1 / (2 ^ 53 : ℕ)) = 1 := by
      rw [hN]
      norm_num
    rw [hcount, one_add_one_eq_two] at hbernoulli
    exact hbernoulli
  rw [← hN] at hn
  calc (2 : ℝ) ^ k
      ≤ (roundingFactor ^ N) ^ k := pow_le_pow_left₀ zero_le_two htwo k
    _ = roundingFactor ^ (N * k) := (pow_mul _ _ _).symm
    _ ≤ roundingFactor ^ n := pow_le_pow_right₀ one_lt_roundingFactor.le hn

/-- A quarter of the smallest double and less is rounded to zero. -/
theorem rounded_eq_zero
    {x : ℝ}
    (hx : 0 ≤ x)
    (htiny : x ≤ 2 ^ (-1076 : ℤ)) :
    rounded x = 0 := by
  have hlog : Int.log 2 ((2 : ℝ) ^ (-1076 : ℤ)) = -1076 :=
    log_eq le_rfl (zpow_lt_zpow_right₀ one_lt_two (by norm_num))
  have hplace : lastPlace (2 ^ (-1076 : ℤ)) = -1074 := by
    rw [lastPlace, hlog]
    rfl
  have hzero : rounded (2 ^ (-1076 : ℤ)) = (0 : ℕ) * 2 ^ (-1074 : ℤ) := by
    apply rounded_eq (by positivity) hplace
    rw [Nat.cast_zero, zero_mul, sub_zero, abs_of_pos (by positivity),
      lt_div_iff₀ two_pos, ← zpow_add_one₀ two_ne_zero]
    exact zpow_lt_zpow_right₀ one_lt_two (by norm_num)
  have hmono := rounded_mono hx htiny
  rw [hzero, Nat.cast_zero, zero_mul] at hmono
  exact le_antisymm hmono (rounded_nonneg x)

/-- A count that rounds to infinity stands for so many roundings that they leave
nothing of one. -/
theorem rounded_div_pow_eq_zero
    {a : ℝ} {n : ℕ}
    (ha : 0 ≤ a)
    (hone : a ≤ 1)
    (hlarge : 2 ^ (1024 : ℤ) ≤ rounded n) :
    rounded (a / roundingFactor ^ n) = 0 := by
  have hfactor := roundingFactor_pos
  have hn : 0 < n := by
    apply Nat.pos_of_ne_zero
    rintro rfl
    rw [Nat.cast_zero, rounded_zero] at hlarge
    exact absurd hlarge (not_le.2 (by positivity))
  have hcount : 2 ^ 53 * 1076 ≤ n := by
    have hdouble : (2 : ℝ) ^ (1024 : ℤ) ≤ n * 2 := by
      calc (2 : ℝ) ^ (1024 : ℤ) ≤ n * roundingFactor :=
            hlarge.trans (rounded_bounds (two_zpow_le_natCast hn)).1
        _ ≤ n * 2 := by
            gcongr
            unfold roundingFactor
            norm_num
    have hfar : ((2 ^ 53 * 1076 : ℕ) : ℝ) * 2 ≤ 2 ^ (1024 : ℤ) := by
      calc ((2 ^ 53 * 1076 : ℕ) : ℝ) * 2 ≤ 2 ^ (65 : ℤ) := by norm_num
        _ ≤ 2 ^ (1024 : ℤ) := by gcongr <;> norm_num
    exact_mod_cast le_of_mul_le_mul_right (hfar.trans hdouble) two_pos
  apply rounded_eq_zero (by positivity)
  rw [zpow_neg, ← one_div]
  exact div_le_div₀ zero_le_one hone (by positivity)
    (two_pow_le_roundingFactor_pow hcount)

end Extremes

end

end Resemblance.Double
