import Resemblance.Proofs.Decimal.Places
import Resemblance.Proofs.Double.Closest
import Resemblance.Proofs.Double.Overflow

/-!
# Stored decimals

A score is stored as the double nearest to its decimal form.  With up to ten
places that double is so near to the decimal that it is written with the same
digits, and rounding it again changes nothing.  Both steps of rounding keep the
order of scores, so the largest of the stored scores is the largest score,
stored.
-/

namespace Resemblance.Double

open Decimal Float.Model

section Units

variable {x y : Float} {r s : ℝ} {k places : ℕ}

/-- What the nearest double is off by is a small part of one unit of the last
place. -/
theorem nearestEven_rounded_mul
    (hk : k ≤ 10 ^ places)
    (hplaces : places ≤ 10) :
    nearestEven (rounded (k / 10 ^ places) * 10 ^ places) = k := by
  have hscale : (0 : ℝ) < 10 ^ places := by positivity
  have hscale' : (10 : ℝ) ^ places ≤ 10 ^ 10 :=
    pow_le_pow_right₀ (by norm_num) hplaces
  have hk' : (k : ℝ) ≤ 10 ^ places := by exact_mod_cast hk
  apply nearestEven_eq (mul_nonneg (rounded_nonneg _) hscale.le)
  rcases Nat.eq_zero_or_pos k with rfl | hpos
  · rw [Nat.cast_zero, zero_div, rounded_zero, zero_mul, sub_zero, abs_zero]
    norm_num
  · have hone : (1 : ℝ) ≤ k := by exact_mod_cast hpos
    have hnormal : (2 : ℝ) ^ (-1022 : ℤ) ≤ k / 10 ^ places := by
      calc (2 : ℝ) ^ (-1022 : ℤ) ≤ 2 ^ (-34 : ℤ) := by gcongr <;> norm_num
        _ ≤ 1 / 10 ^ 10 := by norm_num
        _ ≤ k / 10 ^ places := by gcongr
    calc |rounded (k / 10 ^ places) * 10 ^ places - k|
        = |rounded (k / 10 ^ places) - k / 10 ^ places| * 10 ^ places := by
          rw [← abs_of_pos hscale, ← abs_mul, abs_of_pos hscale, sub_mul,
            div_mul_cancel₀ _ hscale.ne']
      _ ≤ k / 10 ^ places / 2 ^ 53 * 10 ^ places := by
          gcongr
          exact abs_rounded_sub_le_mul hnormal
      _ = k / 2 ^ 53 := by field_simp
      _ < 1 / 2 := by
          rw [div_lt_iff₀ (by positivity)]
          linarith

theorem Denotes.fixed_eq
    (hx : Denotes x r)
    (places : ℕ) :
    fixed places x = pointed (nearestEven (r * 10 ^ places)) places := by
  obtain ⟨m, e, hbinary, rfl⟩ := hx.exists_binary
  rw [Decimal.fixed, hbinary, ← unitsOf_eq]
  rfl

end Units

section Values

variable {x y : Float} {r s : ℝ} {places : ℕ}

theorem nearestEven_zero_mul (c : ℝ) : nearestEven (0 * c) = 0 := by
  have hzero := nearestEven_natCast 0
  rwa [Nat.cast_zero, ← zero_mul c] at hzero

theorem unitsOf_zero (places : ℕ) : unitsOf 0 0 places = 0 := by
  rw [unitsOf_eq, Nat.cast_zero, zero_mul, nearestEven_zero_mul]

/-- The sign of the negative zero is stored, too. -/
theorem roundTo_negativeZero (places : ℕ) :
    Decimal.roundTo (.ofModel (pack (.zero .negative))) places =
      .ofModel (pack (.zero .negative)) := by
  have hnone : nearest 0 (-(places : ℤ)) = .ofModel (pack (.zero .positive)) :=
    rfl
  change withSign true (nearest (unitsOf 0 0 places) (-(places : ℤ))) = _
  rw [unitsOf_zero, hnone]
  rfl

theorem HasValue.roundTo
    (hx : HasValue x r)
    (hone : r ≤ 1)
    (hplaces : places ≤ 10) :
    HasValue (Decimal.roundTo x places)
      (rounded (nearestEven (r * 10 ^ places) / 10 ^ places)) := by
  cases hx with
  | denoted hr => exact .denoted (hr.roundTo hone (hplaces.trans (by norm_num)))
  | negativeZero =>
      rw [roundTo_negativeZero, nearestEven_zero_mul, Nat.cast_zero, zero_div,
        rounded_zero]
      exact .negativeZero

/-- The digits are those of the nearest number of units, and only the negative
zero has a sign. -/
theorem HasValue.exists_fixed_eq
    (hx : HasValue x r)
    (places : ℕ) :
    ∃ negative, (negative = true → x = -0.0) ∧
      fixed places x =
        signed negative (pointed (nearestEven (r * 10 ^ places)) places) := by
  cases hx with
  | denoted hr => exact ⟨false, Bool.noConfusion, hr.fixed_eq places⟩
  | negativeZero =>
      refine ⟨true, fun _ => rfl, ?_⟩
      rw [nearestEven_zero_mul, ← unitsOf_zero places]
      rfl

theorem inUnit_roundTo
    (hx : ComparisonSettings.inUnit x = true)
    (hplaces : places ≤ 10) :
    ComparisonSettings.inUnit (Decimal.roundTo x places) = true := by
  obtain ⟨r, hr, hone⟩ := inUnit_iff.1 hx
  have hunits := units_div_le_one hr.nonneg hone places
  exact inUnit_iff.2
    ⟨_, hr.roundTo hone hplaces, rounded_le_one (by positivity) hunits⟩

/-- Neither rounding to a number of units nor rounding to a double exchanges two
scores. -/
theorem roundTo_le_roundTo
    (hx : ComparisonSettings.inUnit x = true)
    (hy : ComparisonSettings.inUnit y = true)
    (hle : x ≤ y)
    (hplaces : places ≤ 10) :
    Decimal.roundTo x places ≤ Decimal.roundTo y places := by
  obtain ⟨r, hr, -⟩ := inUnit_iff.1 hx
  obtain ⟨s, hs, hone⟩ := inUnit_iff.1 hy
  have hnonneg := hr.nonneg
  have hrs := (hr.le_iff hs).1 hle
  have hunits : nearestEven (r * 10 ^ places) ≤ nearestEven (s * 10 ^ places) :=
    nearestEven_mono (by positivity) (by gcongr)
  rw [(hr.roundTo (hrs.trans hone) hplaces).le_iff (hs.roundTo hone hplaces)]
  exact rounded_mono (by positivity) (by gcongr)

theorem HasValue.fixed_roundTo
    (hx : HasValue x r)
    (hone : r ≤ 1)
    (hplaces : places ≤ 10) :
    fixed places (Decimal.roundTo x places) = fixed places x := by
  cases hx with
  | denoted hr =>
      have hunits := nearestEven_mul_le hr.nonneg hone places
      rw [hr.fixed_eq, (hr.roundTo hone (hplaces.trans (by norm_num))).fixed_eq,
        nearestEven_rounded_mul hunits hplaces]
  | negativeZero => rw [roundTo_negativeZero]

theorem HasValue.roundTo_roundTo
    (hx : HasValue x r)
    (hone : r ≤ 1)
    (hplaces : places ≤ 10) :
    Decimal.roundTo (Decimal.roundTo x places) places =
      Decimal.roundTo x places := by
  cases hx with
  | denoted hr =>
      have hunits := nearestEven_mul_le hr.nonneg hone places
      rw [(hr.roundTo hone (hplaces.trans (by norm_num))).roundTo_eq,
        nearestEven_rounded_mul hunits hplaces, hr.roundTo_eq]
  | negativeZero => rw [roundTo_negativeZero, roundTo_negativeZero]

/-- Of all doubles the stored one is the nearest to the decimal. -/
theorem HasValue.abs_sub_lt_of_ne
    (hx : HasValue x r)
    (hone : r ≤ 1)
    (hplaces : places ≤ 10)
    {t : ℝ}
    (ht : IsDouble t)
    (hne : t ≠ rounded (nearestEven (r * 10 ^ places) / 10 ^ places)) :
    |rounded (nearestEven (r * 10 ^ places) / 10 ^ places) -
        nearestEven (r * 10 ^ places) / 10 ^ places| <
      |t - nearestEven (r * 10 ^ places) / 10 ^ places| := by
  have hscale : 10 ^ places ≤ 10 ^ 10 :=
    Nat.pow_le_pow_right (by norm_num) hplaces
  have hunits := (nearestEven_mul_le hx.nonneg hone places).trans hscale
  rw [← not_le]
  intro hnear
  exact hne
    (ht.eq_rounded_of_abs_sub_le (hunits.trans_lt (by norm_num))
      (by omega) hnear)

end Values

section Scores

variable {x y : Float} {places : ℕ}

theorem InUnitOrUndefined.fixed_roundTo
    (hx : InUnitOrUndefined x)
    (hplaces : places ≤ 10) :
    fixed places (Decimal.roundTo x places) = fixed places x := by
  cases hx with
  | undefined => rfl
  | inUnit hunit =>
      cases hunit with
      | of hr hone => exact (HasValue.denoted hr).fixed_roundTo hone hplaces

theorem larger_undefined (hx : x.isNaN = false) :
    Score.larger x (.ofModel (pack .notANumber)) = x := by
  have hnone : ¬ x ≤ .ofModel (pack .notANumber) := fun hle =>
    Bool.noConfusion ((Score.le_iff _ _).1 hle).2.1
  rw [Score.larger, hx, if_neg Bool.false_ne_true, if_neg hnone]

theorem InUnit.larger
    (hx : InUnit x)
    (hy : InUnitOrUndefined y) :
    InUnit (Score.larger x y) := by
  cases hy with
  | undefined => rwa [larger_undefined hx.isNaN_eq_false]
  | inUnit hunit =>
      rw [Score.larger, hx.isNaN_eq_false, if_neg Bool.false_ne_true]
      split
      next => exact hunit
      next => exact hx

/-- The larger of two stored scores is the larger score, stored. -/
theorem InUnit.larger_roundTo
    (hx : InUnit x)
    (hy : InUnitOrUndefined y)
    (hplaces : places ≤ 10) :
    Score.larger (Decimal.roundTo x places) (Decimal.roundTo y places) =
      Decimal.roundTo (Score.larger x y) places := by
  have hstored := hx.roundTo (hplaces.trans (by norm_num))
  cases hy with
  | undefined =>
      rw [larger_undefined hx.isNaN_eq_false]
      exact larger_undefined hstored.isNaN_eq_false
  | inUnit hunit =>
      have hstored' := hunit.roundTo (hplaces.trans (by norm_num))
      rw [Score.larger, Score.larger, hx.isNaN_eq_false, hstored.isNaN_eq_false,
        if_neg Bool.false_ne_true, if_neg Bool.false_ne_true]
      by_cases hle : x ≤ y
      · have hle' :=
          roundTo_le_roundTo hx.inUnit_eq_true hunit.inUnit_eq_true hle hplaces
        rw [if_pos hle, if_pos hle']
      · -- Two scores that differ may be stored alike, and then either may be
        -- returned.
        have hle' :=
          Score.le_of_not_le hx.isNaN_eq_false hunit.isNaN_eq_false hle
        have hback :=
          roundTo_le_roundTo hunit.inUnit_eq_true hx.inUnit_eq_true hle' hplaces
        rw [if_neg hle]
        split
        next halike =>
          exact (hstored'.beq_iff_eq hstored).1
            ((Score.beq_iff _ _).2 ⟨hback, halike⟩)
        next => rfl

end Scores

end Resemblance.Double
