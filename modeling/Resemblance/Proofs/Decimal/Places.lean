import Resemblance.Decimal.Fixed
import Resemblance.Proofs.Double.Order

/-!
# Rounding to decimal places

A double is rounded twice when it is cut down to a number of decimal places:
first its exact value to a whole number of units of the last place, then that
number of units to the nearest double.  Neither step passes one, so a double of
the unit interval stays there.
-/

namespace Resemblance.Double

open Decimal Float.Model

section Units

theorem roundHalfEven_eq
    (num : ℕ)
    {den : ℕ}
    (hden : 0 < den) :
    roundHalfEven num den = nearestEven (num / den) := by
  have hrounds := (locates_quotient num hden).roundToNearestEven_eq
  rw [← hrounds]
  unfold roundHalfEven UnpackedFloat.accuracyOfFraction
  rcases Nat.eq_zero_or_pos (num % den) with hzero | hpos
  · rw [hzero, if_pos rfl, if_neg (by omega), if_neg (by omega)]
    rfl
  · rw [if_neg hpos.ne']
    rcases Nat.lt_trichotomy (2 * (num % den)) den with hlt | heq | hgt
    · rw [Nat.compare_eq_lt.2 hlt, if_neg (by omega), if_neg (by omega)]
      rfl
    · rw [Nat.compare_eq_eq.2 heq, if_neg (by omega), if_pos heq]
      rfl
    · rw [Nat.compare_eq_gt.2 hgt, if_pos hgt]
      rfl

theorem unitsOf_eq
    (m : ℕ)
    (e : ℤ)
    (places : ℕ) :
    unitsOf m e places = nearestEven (m * 2 ^ e * 10 ^ places) := by
  have hscale : (2 : ℝ) ^ e = 2 ^ e.toNat / 2 ^ (-e).toNat := by
    rw [← zpow_natCast, ← zpow_natCast, ← zpow_sub₀ two_ne_zero]
    congr 1
    omega
  have hden : 0 < Nat.pow 2 (-e).toNat := Nat.pow_pos two_pos
  rw [unitsOf, roundHalfEven_eq _ hden, hscale]
  congr 1
  simp only [Nat.pow_eq, Nat.cast_mul, Nat.cast_pow, Nat.cast_ofNat]
  ring

end Units

section Scientific

variable {n k : ℕ}

/-- A factor of one changes neither mantissa nor exponent. -/
theorem mul_one_eq
    (m : ℕ)
    (e : ℤ)
    {hm : 0 < m} {hone : 0 < 10 ^ 0} :
    UnpackedFloat.mul .binary64 (.finite .positive m e hm)
      (.finite .positive (10 ^ 0) 0 hone) =
      UnpackedFloat.roundWithAccuracy .binary64 .positive m e .exact := by
  change UnpackedFloat.roundWithAccuracy .binary64 .positive (m * 10 ^ 0)
    (e + 0) .exact = _
  rw [pow_zero, Nat.mul_one, Int.add_zero]

theorem roundsTo_shifted (hn : 0 < n) :
    RoundsTo .positive n
      (UnpackedFloat.roundWithAccuracy .binary64 .positive (n <<< 53)
        (-53) .exact) := by
  have hvalue : ((n <<< 53 : ℕ) : ℝ) * 2 ^ (-53 : ℤ) = n := by
    have hshift : ((n <<< 53 : ℕ) : ℝ) * 2 ^ (-53 : ℤ) = n * 2 ^ (0 : ℤ) :=
      shiftLeft_mul_zpow (by norm_num)
    rwa [zpow_zero, mul_one] at hshift
  have hshifted : 0 < n <<< 53 := by
    rw [Nat.shiftLeft_eq]
    positivity
  have hpos : (0 : ℝ) < (n <<< 53 : ℕ) := by exact_mod_cast hshifted
  have hplace : (-53 : ℤ) ≤ lastPlace ((n <<< 53 : ℕ) * 2 ^ (-53 : ℤ)) := by
    have hlog := log_eq_log2 hn 0
    rw [zpow_zero, mul_one] at hlog
    rw [hvalue, lastPlace, hlog]
    omega
  have hrounds := roundsTo_roundWithAccuracy .positive
    (Locates.exact rfl : Locates (n <<< 53) .exact (n <<< 53 : ℕ)) hpos
      (.inl hshifted) hplace
  rw [hvalue] at hrounds
  exact hrounds

/-- A number of units of the last of `k` decimal places. -/
theorem roundsTo_ofScientific
    (hn : 0 < n)
    (hk : k ≤ 2048) :
    RoundsTo .positive (n / 10 ^ k)
      (UnpackedFloat.ofScientific .binary64 n (-(k : ℤ))) := by
  have hlow : ¬ -(k : ℤ) <
      -((2 : ℤ) ^ Format.binary64.exponentBits + n.log2) := by
    change ¬ -(k : ℤ) < -((2 : ℤ) ^ 11 + n.log2)
    omega
  have hhigh : ¬ -(k : ℤ) > (2 : ℤ) ^ Format.binary64.exponentBits := by
    change ¬ -(k : ℤ) > (2 : ℤ) ^ 11
    omega
  unfold UnpackedFloat.ofScientific
  rw [dif_neg hn.ne', if_neg hhigh, if_neg hlow]
  rcases Nat.eq_zero_or_pos k with rfl | hpos
  · rw [if_pos (by omega), pow_zero, div_one]
    change RoundsTo .positive n
      (UnpackedFloat.mul .binary64 _ (.finite .positive (10 ^ 0) 0 _))
    rw [mul_one_eq]
    exact roundsTo_shifted hn
  · have hamount : (- -(k : ℤ)).toNat = k := by omega
    have hquotient := @roundsTo_div n (10 ^ k) 0 0 hn (Nat.pow_pos (by decide))
    rw [if_neg (by omega)]
    simp only [hamount]
    simpa using hquotient

theorem denotes_nearest
    (n : ℕ)
    (hk : k ≤ 2048)
    (hrange : (n / 10 ^ k : ℝ) < 2 ^ (1023 : ℤ)) :
    Denotes (nearest n (-(k : ℤ))) (rounded (n / 10 ^ k)) := by
  rcases Nat.eq_zero_or_pos n with rfl | hn
  · rw [Nat.cast_zero, zero_div, rounded_zero]
    exact .zero
  · exact denotes_of_roundsTo (roundsTo_ofScientific hn hk)
      (by positivity) hrange

end Scientific

section Places

variable {x : Float} {r : ℝ} {places : ℕ}

theorem Denotes.exists_binary (hx : Denotes x r) :
    ∃ (m : ℕ) (e : ℤ), Binary.ofFloat x = .finite false m e ∧
      r = m * 2 ^ e := by
  cases hx with
  | zero => exact ⟨0, 0, rfl, by norm_num⟩
  | finite m e hm hc hhigh =>
      refine ⟨m, e, ?_, rfl⟩
      unfold Binary.ofFloat
      change (match (pack (.finite .positive m e hm)).unpack with | _ => _) = _
      rw [unpack_pack_finite hc hhigh]
      rfl

theorem Denotes.roundTo_eq
    (hx : Denotes x r)
    (places : ℕ) :
    Decimal.roundTo x places =
      nearest (nearestEven (r * 10 ^ places)) (-(places : ℤ)) := by
  obtain ⟨m, e, hbinary, rfl⟩ := hx.exists_binary
  rw [Decimal.roundTo, hbinary, ← unitsOf_eq]
  rfl

theorem nearestEven_mul_le
    (hr : 0 ≤ r)
    (hone : r ≤ 1)
    (places : ℕ) :
    nearestEven (r * 10 ^ places) ≤ 10 ^ places := by
  apply nearestEven_le (by positivity)
  push_cast
  exact mul_le_of_le_one_left (by positivity) hone

theorem units_div_le_one
    (hr : 0 ≤ r)
    (hone : r ≤ 1)
    (places : ℕ) :
    (nearestEven (r * 10 ^ places) / 10 ^ places : ℝ) ≤ 1 := by
  rw [div_le_one (by positivity)]
  exact_mod_cast nearestEven_mul_le hr hone places

/-- The double nearest to the nearest number of units. -/
theorem Denotes.roundTo
    (hx : Denotes x r)
    (hone : r ≤ 1)
    (hplaces : places ≤ 2048) :
    Denotes (Decimal.roundTo x places)
      (rounded (nearestEven (r * 10 ^ places) / 10 ^ places)) := by
  rw [hx.roundTo_eq]
  exact denotes_nearest _ hplaces
    (lt_two_zpow_of_le_one (units_div_le_one hx.nonneg hone places))

theorem InUnit.roundTo
    (hx : InUnit x)
    (hplaces : places ≤ 2048) :
    InUnit (Decimal.roundTo x places) := by
  cases hx with
  | @of r hr hone =>
      exact .of (hr.roundTo hone hplaces)
        (rounded_le_one (by positivity)
          (units_div_le_one hr.nonneg hone places))

end Places

end Resemblance.Double
