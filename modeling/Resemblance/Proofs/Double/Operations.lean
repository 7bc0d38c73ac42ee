import Mathlib.Data.Nat.Sqrt
import Resemblance.Proofs.Double.Rounding

/-!
# Products, quotients and roots of doubles

Every operation first computes a whole number of units with enough digits and
notes what has been cut off.  From that number and that note the rounding finds
the double nearest to the exact result.
-/

namespace Resemblance.Double

open Float.Model Float.Model.UnpackedFloat

variable {m n : ℕ} {e f : ℤ}

section Products

theorem Canonical.exponent_add_le
    (hc : Canonical m e)
    (hd : Canonical n f) :
    e + f ≤ lastPlace ((m * n : ℕ) * 2 ^ (e + f)) := by
  have hpos : 0 < m * n := Nat.mul_pos hc.pos hd.pos
  rw [lastPlace, log_eq_log2 hpos]
  have hfull : ∀ k, 2 ^ 52 ≤ k → k ≤ m * n → 52 ≤ (m * n).log2 := by
    intro k hk hle
    exact (Nat.le_log2 hpos.ne').2 (hk.trans hle)
  rcases hc.full with hlowest | hm
  · rcases hd.full with hlowest' | hn
    · omega
    · have hdigits := hfull n hn (Nat.le_mul_of_pos_left n hc.pos)
      omega
  · have hdigits := hfull m hm (Nat.le_mul_of_pos_right m hd.pos)
    omega

theorem roundsTo_mul
    {hm : 0 < m} {hn : 0 < n}
    (hc : Canonical m e)
    (hd : Canonical n f) :
    RoundsTo .positive (m * 2 ^ e * (n * 2 ^ f))
      (UnpackedFloat.mul .binary64 (.finite .positive m e hm)
        (.finite .positive n f hn)) := by
  have hpos : 0 < m * n := Nat.mul_pos hm hn
  have hproduct : (m * 2 ^ e * (n * 2 ^ f) : ℝ) =
      (m * n : ℕ) * 2 ^ (e + f) := by
    rw [zpow_add₀ two_ne_zero]
    push_cast
    ring
  have hexact : Locates (m * n) .exact (m * n : ℕ) := .exact rfl
  rw [hproduct]
  exact roundsTo_roundWithAccuracy .positive hexact
    (by exact_mod_cast hpos) (.inl hpos)
    (hc.exponent_add_le hd)

end Products

section Quotients

theorem locates_quotient
    (a : ℕ)
    (hn : 0 < n) :
    Locates (a / n) (accuracyOfFraction (a % n) n) (a / n) := by
  have hn' : (0 : ℝ) < n := by exact_mod_cast hn
  have hquotient : (a : ℝ) / n = (a / n : ℕ) + (a % n : ℕ) / n := by
    have hdivision : (a : ℝ) = n * (a / n : ℕ) + (a % n : ℕ) := by
      exact_mod_cast (Nat.div_add_mod a n).symm
    field_simp
    exact hdivision
  have hrest : ((a % n : ℕ) : ℝ) / n < 1 := by
    rw [div_lt_one hn']
    exact_mod_cast Nat.mod_lt a hn
  rw [hquotient]
  unfold accuracyOfFraction
  split_ifs with hzero
  · rw [hzero, Nat.cast_zero, zero_div, add_zero]
    exact .exact rfl
  · have hpositive : (0 : ℝ) < (a % n : ℕ) / n := by
      have hrest' : (0 : ℝ) < (a % n : ℕ) := by
        exact_mod_cast Nat.pos_of_ne_zero hzero
      positivity
    rcases Nat.lt_trichotomy (2 * (a % n)) n with hlt | heq | hgt
    · rw [Nat.compare_eq_lt.2 hlt]
      have hhalf : ((a % n : ℕ) : ℝ) / n < 1 / 2 := by
        rw [div_lt_div_iff₀ hn' two_pos, mul_comm, one_mul]
        exact_mod_cast hlt
      exact .below (by linarith) (by linarith)
    · rw [Nat.compare_eq_eq.2 heq]
      have hhalf : ((a % n : ℕ) : ℝ) / n = 1 / 2 := by
        rw [div_eq_div_iff hn'.ne' two_ne_zero, mul_comm, one_mul]
        exact_mod_cast heq
      exact .tie (by linarith)
    · rw [Nat.compare_eq_gt.2 hgt]
      have hhalf : 1 / 2 < ((a % n : ℕ) : ℝ) / n := by
        rw [div_lt_div_iff₀ two_pos hn', one_mul, mul_comm]
        exact_mod_cast hgt
      exact .above (by linarith) (by linarith)

/-- The binary digits of a quotient begin no later than one place after the
difference. -/
theorem log_sub_log_le
    (hm : 0 < m)
    (hn : 0 < n)
    (e f : ℤ) :
    (m.log2 + e) - (n.log2 + f) - 1 ≤
      Int.log 2 (m * 2 ^ e / (n * 2 ^ f) : ℝ) := by
  have hm' : (0 : ℝ) < m := by exact_mod_cast hm
  have hn' : (0 : ℝ) < n := by exact_mod_cast hn
  have hnumerator : (2 : ℝ) ^ ((m.log2 : ℤ) + e) ≤ m * 2 ^ e := by
    have hlog := zpow_log_le (by positivity : (0 : ℝ) < m * 2 ^ e)
    rwa [log_eq_log2 hm] at hlog
  have hdenominator : (n * 2 ^ f : ℝ) ≤ 2 ^ ((n.log2 : ℤ) + f + 1) := by
    have hlog := lt_zpow_log (n * 2 ^ f : ℝ)
    rw [log_eq_log2 hn] at hlog
    exact hlog.le
  apply (Int.zpow_le_iff_le_log one_lt_two (by positivity)).1
  rw [Nat.cast_ofNat, le_div_iff₀ (by positivity)]
  calc (2 : ℝ) ^ ((m.log2 : ℤ) + e - (n.log2 + f) - 1) * (n * 2 ^ f)
      ≤ 2 ^ ((m.log2 : ℤ) + e - (n.log2 + f) - 1) *
        2 ^ ((n.log2 : ℤ) + f + 1) := by gcongr
    _ = 2 ^ ((m.log2 : ℤ) + e) := by
        rw [← zpow_add₀ two_ne_zero]
        congr 1
        ring
    _ ≤ m * 2 ^ e := hnumerator

theorem shiftLeft_mul_zpow
    {k : ℕ} {t : ℤ}
    (hk : e - t = k) :
    ((m <<< k : ℕ) : ℝ) * 2 ^ t = m * 2 ^ e := by
  have hexponent : e = k + t := by omega
  rw [hexponent, zpow_add₀ two_ne_zero, zpow_natCast, Nat.shiftLeft_eq]
  push_cast
  ring

theorem roundsTo_div
    {hm : 0 < m} {hn : 0 < n} :
    RoundsTo .positive (m * 2 ^ e / (n * 2 ^ f))
      (UnpackedFloat.div .binary64 (.finite .positive m e hm)
        (.finite .positive n f hn)) := by
  have hm' : (0 : ℝ) < m := by exact_mod_cast hm
  have hn' : (0 : ℝ) < n := by exact_mod_cast hn
  obtain ⟨t, ht⟩ : ∃ t, t = min (e - f)
      (Format.binary64.targetExponent
        (totalExponent m e - totalExponent n f)) :=
    ⟨_, rfl⟩
  obtain ⟨k, hk⟩ := Int.le.dest (ht.le.trans (min_le_left _ _))
  have hquotient : ((m <<< k : ℕ) : ℝ) / n * 2 ^ t =
      m * 2 ^ e / (n * 2 ^ f) := by
    have hshift : ((m <<< k : ℕ) : ℝ) * 2 ^ t = m * 2 ^ (e - f) :=
      shiftLeft_mul_zpow (by omega)
    rw [div_mul_eq_mul_div, hshift, zpow_sub₀ two_ne_zero]
    field_simp
  have hlog := log_sub_log_le hm hn e f
  have htarget : t ≤ max (m.log2 + e - (n.log2 + f) - 53) (-1074) := by
    have hle := ht.le.trans (min_le_right _ _)
    rw [targetExponent_eq, totalExponent, totalExponent] at hle
    omega
  have hlocates := locates_quotient (m <<< k) hn
  have hpositive : (0 : ℝ) < (m <<< k : ℕ) / n := by
    have hshifted : (0 : ℝ) < (m <<< k : ℕ) := by
      rw [Nat.shiftLeft_eq]
      positivity
    positivity
  have hplace : t ≤ lastPlace ((m <<< k : ℕ) / n * 2 ^ t) := by
    rw [hquotient, lastPlace]
    omega
  have hdigits : 0 < m <<< k / n ∨ t ≤ -1022 := by
    rcases Nat.eq_zero_or_pos (m <<< k / n) with hzero | hpos
    · -- The quotient has no digit above the place `t`, so `t` is the lowest of
      -- all.
      have hbelow : m * 2 ^ e / (n * 2 ^ f) < (2 : ℝ) ^ t := by
        have hhigh := hlocates.bounds.2
        rw [hzero, Nat.cast_zero, zero_add] at hhigh
        rw [← hquotient]
        have hscale : (0 : ℝ) < 2 ^ t := by positivity
        nlinarith
      have hlog' : Int.log 2 (m * 2 ^ e / (n * 2 ^ f) : ℝ) < t :=
        (Int.lt_zpow_iff_log_lt one_lt_two (by positivity)).1
          (by simpa using hbelow)
      exact .inr (by omega)
    · exact .inl hpos
  have hrounds :=
    roundsTo_roundWithAccuracy .positive hlocates hpositive hdigits hplace
  rw [hquotient] at hrounds
  have hcore :
      UnpackedFloat.div .binary64 (.finite .positive m e hm)
        (.finite .positive n f hn) =
      roundWithAccuracy .binary64 .positive (m <<< k / n) t
        (accuracyOfFraction (m <<< k % n) n) := by
    have hamount : (e - f - t).toNat = k := by omega
    rw [← hamount, ht]
    rfl
  rw [hcore]
  exact hrounds

end Quotients

section Roots

theorem locates_sqrt (a : ℕ) :
    Locates a.sqrt
      (if a - a.sqrt * a.sqrt = 0 then .exact
        else .inexact (if a - a.sqrt * a.sqrt ≤ a.sqrt then .lt else .gt))
      √a := by
  have hlow : a.sqrt * a.sqrt ≤ a := Nat.sqrt_le a
  have hhigh : (a : ℝ) < (a.sqrt + 1) * (a.sqrt + 1) := by
    exact_mod_cast Nat.lt_succ_sqrt a
  have hroot : (0 : ℝ) ≤ a.sqrt := Nat.cast_nonneg _
  split_ifs with hexact hsmall
  · have hsquare : (a.sqrt : ℝ) * a.sqrt = a := by
      exact_mod_cast (by omega : a.sqrt * a.sqrt = a)
    exact .exact
      ((Real.sqrt_eq_iff_mul_self_eq (Nat.cast_nonneg a) hroot).2 hsquare.symm)
  · have habove : (a.sqrt : ℝ) * a.sqrt < a := by
      exact_mod_cast (by omega : a.sqrt * a.sqrt < a)
    have hbelow : (a : ℝ) ≤ a.sqrt * a.sqrt + a.sqrt := by
      exact_mod_cast (by omega : a ≤ a.sqrt * a.sqrt + a.sqrt)
    apply Locates.below
    · rw [Real.lt_sqrt hroot]
      linarith
    · rw [Real.sqrt_lt' (by positivity)]
      linarith
  · -- A root above a half has a square above a quarter, hence a rest that
    -- exceeds the root.
    have habove : (a.sqrt : ℝ) * a.sqrt + a.sqrt + 1 ≤ a := by
      exact_mod_cast (by omega : a.sqrt * a.sqrt + a.sqrt + 1 ≤ a)
    apply Locates.above
    · rw [Real.lt_sqrt (by positivity)]
      linarith
    · rw [Real.sqrt_lt' (by positivity)]
      linarith

theorem half_log_le
    (hm : 0 < m)
    (e : ℤ) :
    (m.log2 + e) / 2 ≤ Int.log 2 √(m * 2 ^ e) := by
  have hm' : (0 : ℝ) < m := by exact_mod_cast hm
  have hlog := zpow_log_le (by positivity : (0 : ℝ) < m * 2 ^ e)
  rw [log_eq_log2 hm] at hlog
  apply (Int.zpow_le_iff_le_log one_lt_two (by positivity)).1
  rw [Nat.cast_ofNat]
  apply Real.le_sqrt_of_sq_le
  calc ((2 : ℝ) ^ (((m.log2 : ℤ) + e) / 2)) ^ 2
      = 2 ^ (((m.log2 : ℤ) + e) / 2 * 2) := by
        rw [zpow_mul]
        rfl
    _ ≤ 2 ^ ((m.log2 : ℤ) + e) := by
        gcongr
        · exact one_le_two
        · omega
    _ ≤ m * 2 ^ e := hlog

theorem roundsTo_sqrt
    {hm : 0 < m} :
    RoundsTo .positive √(m * 2 ^ e)
      (UnpackedFloat.sqrt .binary64 (.finite .positive m e hm)) := by
  have hm' : (0 : ℝ) < m := by exact_mod_cast hm
  obtain ⟨t, ht⟩ : ∃ t, t = min (e.ediv 2)
      (Format.binary64.targetExponent ((totalExponent m e + 1).ediv 2)) :=
    ⟨_, rfl⟩
  have hhalf : 2 * t ≤ e := by
    have hle : t ≤ e / 2 := ht.le.trans (min_le_left _ _)
    omega
  obtain ⟨k, hk⟩ := Int.le.dest hhalf
  have hroot : √(m <<< k : ℕ) * 2 ^ t = √(m * 2 ^ e) := by
    have hshift : ((m <<< k : ℕ) : ℝ) * 2 ^ (2 * t) = m * 2 ^ e :=
      shiftLeft_mul_zpow (by omega)
    have hsquare : (2 : ℝ) ^ (2 * t) = 2 ^ t * 2 ^ t := by
      rw [two_mul, zpow_add₀ two_ne_zero]
    rw [← hshift, hsquare, Real.sqrt_mul (Nat.cast_nonneg _),
      Real.sqrt_mul_self (by positivity)]
  have hlog := half_log_le hm e
  have hplace : t ≤ lastPlace (√(m <<< k : ℕ) * 2 ^ t) := by
    have hle : t ≤ max ((m.log2 + 1 + e + 1) / 2 - 53) (-1074) := by
      have hle := ht.le.trans (min_le_right _ _)
      rwa [targetExponent_eq, totalExponent] at hle
    rw [hroot, lastPlace]
    omega
  have hshifted : 0 < m <<< k := by
    rw [Nat.shiftLeft_eq]
    positivity
  have hpositive : (0 : ℝ) < √(m <<< k : ℕ) :=
    Real.sqrt_pos.2 (by exact_mod_cast hshifted)
  have hdigits : 0 < (m <<< k).sqrt := Nat.sqrt_pos.2 hshifted
  have hrounds :=
    roundsTo_roundWithAccuracy .positive (locates_sqrt (m <<< k)) hpositive
      (.inl hdigits) hplace
  rw [hroot] at hrounds
  have hamount : (e - 2 * t).toNat = k := by omega
  rw [← hamount, ht] at hrounds
  exact hrounds

end Roots

section Naturals

theorem roundsTo_round
    (hm : 0 < m)
    (e : ℤ) :
    RoundsTo .positive (m * 2 ^ e)
      (UnpackedFloat.round .binary64 .positive m e) := by
  have hm' : (0 : ℝ) < m := by exact_mod_cast hm
  have htarget :=
    targetExponent_eq_lastPlace hm' le_rfl (lt_add_one (m : ℝ))
      (.inl hm) (e := e)
  obtain ⟨k, hk⟩ : ∃ k, k = (e - lastPlace (m * 2 ^ e)).toNat := ⟨_, rfl⟩
  have hshift : ((m <<< k : ℕ) : ℝ) * 2 ^ (e - k) = m * 2 ^ e :=
    shiftLeft_mul_zpow (by omega)
  have hshifted : 0 < m <<< k := by
    rw [Nat.shiftLeft_eq]
    positivity
  have hplace : e - k ≤ lastPlace ((m <<< k : ℕ) * 2 ^ (e - k)) := by
    rw [hshift]
    omega
  have hrounds := roundsTo_roundWithAccuracy .positive
    (Locates.exact rfl : Locates (m <<< k) .exact (m <<< k : ℕ))
    (by exact_mod_cast hshifted)
    (.inl hshifted) hplace
  rw [hshift, hk, ← htarget] at hrounds
  exact hrounds

theorem roundsTo_ofNat (hn : 0 < n) :
    RoundsTo .positive n (UnpackedFloat.ofNat .binary64 n) := by
  have hround : UnpackedFloat.ofNat .binary64 n =
      UnpackedFloat.round .binary64 .positive n 0 := by
    have hgt : compare (n : ℤ) 0 = .gt := Int.compare_eq_gt.2 (by omega)
    change (match compare (n : ℤ) 0 with
      | .lt => UnpackedFloat.round .binary64 .negative (-(n : ℤ)).toNat 0
      | .eq => .zero .positive
      | .gt => UnpackedFloat.round .binary64 .positive (n : ℤ).toNat 0) = _
    rw [hgt]
    rfl
  have hvalue := roundsTo_round hn 0
  rw [zpow_zero, mul_one] at hvalue
  rw [hround]
  exact hvalue

end Naturals

end Resemblance.Double
