import Resemblance.Comparison.Settings
import Resemblance.Proofs.Double.Sums
import Resemblance.Proofs.Score.Order

/-!
# The order of doubles and the unit interval

Doubles compare as the numbers that they denote.  A double lies in the unit
interval when it denotes a number up to one; rounding does not pass one, so a
part of a positive number, the rest to one and the smaller of a double and one
stay in the interval.
-/

namespace Resemblance.Double

open Float.Model

section Comparison

variable {x y : Float} {r s : ℝ}

theorem Canonical.value_lt_of_lt
    {m n : ℕ} {e f : ℤ}
    (hc : Canonical m e)
    (hd : Canonical n f)
    (hef : e < f) :
    (m * 2 ^ e : ℝ) < n * 2 ^ f := by
  have hfull : 2 ^ 52 ≤ n := hd.full.resolve_left (hc.low.trans_lt hef).ne'
  calc (m * 2 ^ e : ℝ) < (2 ^ 53 : ℕ) * 2 ^ e := by
        gcongr
        exact_mod_cast hc.small
    _ = (2 ^ 52 : ℕ) * 2 ^ (e + 1) := by
        rw [zpow_add_one₀ two_ne_zero]
        push_cast
        ring
    _ ≤ n * 2 ^ f := by
        gcongr
        · exact one_le_two
        · exact hef

/-- Full mantissas make the exponent decide first. -/
theorem Canonical.value_le_iff
    {m n : ℕ} {e f : ℤ}
    (hc : Canonical m e)
    (hd : Canonical n f) :
    (m * 2 ^ e : ℝ) ≤ n * 2 ^ f ↔ e < f ∨ e = f ∧ m ≤ n := by
  rcases lt_trichotomy e f with hless | rfl | hmore
  · simp [hless, (hc.value_lt_of_lt hd hless).le]
  · have hpower : (0 : ℝ) < 2 ^ e := by positivity
    simp [mul_le_mul_iff_of_pos_right hpower]
  · simp [not_lt.2 hmore.le, hmore.ne', hd.value_lt_of_lt hc hmore]

theorem Denotes.isNaN_eq_false (hx : Denotes x r) : x.isNaN = false := by
  cases hx with
  | zero => rfl
  | finite m e hm hc hhigh =>
      change (pack (.finite .positive m e hm)).unpack.isNaN = false
      rw [unpack_pack_finite hc hhigh]
      rfl

theorem rank_finite
    {m : ℕ} {e : ℤ} {hm : 0 < m}
    (hc : Canonical m e)
    (hhigh : e ≤ 971) :
    Score.rank (.ofModel (pack (.finite .positive m e hm))) = ⟨1, e, m⟩ := by
  change Score.Rank.ofUnpacked (pack (.finite .positive m e hm)).unpack = _
  rw [unpack_pack_finite hc hhigh]
  rfl

theorem Denotes.rank_le_iff
    (hx : Denotes x r)
    (hy : Denotes y s) :
    (Score.rank x).Le (Score.rank y) ↔ r ≤ s := by
  have hzero : Score.rank (.ofModel (pack (.zero .positive))) = ⟨0, 0, 0⟩ := rfl
  cases hx with
  | zero =>
      rw [hzero]
      cases hy with
      | zero => simp [hzero, Score.Rank.Le]
      | finite n f hn hd hhigh =>
          simp [rank_finite hd hhigh, Score.Rank.Le, hd.value_pos.le]
  | finite m e hm hc hhigh =>
      rw [rank_finite hc hhigh]
      cases hy with
      | zero => simp [hzero, Score.Rank.Le, hc.value_pos]
      | finite n f hn hd hhigh' =>
          simp [rank_finite hd hhigh', Score.Rank.Le, hc.value_le_iff hd]

theorem Denotes.le_iff
    (hx : Denotes x r)
    (hy : Denotes y s) :
    x ≤ y ↔ r ≤ s := by
  rw [Score.le_iff, hx.rank_le_iff hy, hx.isNaN_eq_false, hy.isNaN_eq_false]
  exact ⟨fun h => h.2.2, fun h => ⟨rfl, rfl, h⟩⟩

theorem Denotes.eq_iff
    (hx : Denotes x r)
    (hy : Denotes y s) :
    x = y ↔ r = s := by
  constructor
  · rintro rfl
    exact le_antisymm ((hx.le_iff hy).1 ((hx.le_iff hx).2 le_rfl))
      ((hy.le_iff hx).1 ((hx.le_iff hx).2 le_rfl))
  · rintro rfl
    exact hx.eq hy

/-- There is no negative zero among the doubles that denote a number. -/
theorem Denotes.beq_iff_eq
    (hx : Denotes x r)
    (hy : Denotes y s) :
    (x == y) = true ↔ x = y := by
  rw [Score.beq_iff, hx.le_iff hy, hy.le_iff hx, hx.eq_iff hy, le_antisymm_iff]

end Comparison

section UnitInterval

/-- The double denotes a number between zero and one. -/
inductive InUnit : Float → Prop
  | of {x : Float} {r : ℝ} : Denotes x r → r ≤ 1 → InUnit x

variable {x y : Float} {r s : ℝ}

theorem inUnit_zero : InUnit 0.0 := .of .zero zero_le_one

theorem inUnit_one : InUnit 1.0 := .of denotes_one le_rfl

theorem InUnit.zero_le (hx : InUnit x) : 0.0 ≤ x := by
  cases hx with
  | of hr hone => exact (Denotes.zero.le_iff hr).2 hr.nonneg

theorem InUnit.le_one (hx : InUnit x) : x ≤ 1.0 := by
  cases hx with
  | of hr hone => exact (hr.le_iff denotes_one).2 hone

theorem InUnit.isNaN_eq_false (hx : InUnit x) : x.isNaN = false := by
  cases hx with
  | of hr hone => exact hr.isNaN_eq_false

theorem InUnit.inUnit_eq_true (hx : InUnit x) :
    ComparisonSettings.inUnit x = true := by
  simp [ComparisonSettings.inUnit, hx.zero_le, hx.le_one]

theorem InUnit.beq_iff_eq
    (hx : InUnit x)
    (hy : InUnit y) :
    (x == y) = true ↔ x = y := by
  cases hx with
  | of hr _ =>
      cases hy with
      | of hs _ => exact hr.beq_iff_eq hs

theorem lt_two_zpow_of_le_one (hr : r ≤ 1) : r < 2 ^ (1023 : ℤ) :=
  hr.trans_lt (one_lt_zpow₀ one_lt_two (by norm_num))

theorem Denotes.inUnit_div
    (hx : Denotes x r)
    (hy : Denotes y s)
    (hs : 0 < s)
    (hle : r ≤ s) :
    InUnit (x / y) := by
  have hone : r / s ≤ 1 := (div_le_one hs).2 hle
  have hnonneg : 0 ≤ r / s := div_nonneg hx.nonneg hs.le
  exact .of (hx.div hy hs (lt_two_zpow_of_le_one hone))
    (rounded_le_one hnonneg hone)

theorem InUnit.one_sub (hx : InUnit x) : InUnit (1.0 - x) := by
  cases hx with
  | @of r hr hone =>
      have hrest : 0 ≤ 1 - r := sub_nonneg.2 hone
      have hrest' : 1 - r ≤ 1 := sub_le_self 1 hr.nonneg
      exact .of (denotes_one.sub hr hone (lt_two_zpow_of_le_one le_rfl))
        (rounded_le_one hrest hrest')

/-- Whatever lies above one is cut off. -/
theorem Denotes.smaller_one (hx : Denotes x r) :
    Denotes (Score.smaller x 1.0) (min r 1) := by
  unfold Score.smaller
  rw [hx.isNaN_eq_false]
  by_cases hle : 1.0 ≤ x
  · have habove : 1 ≤ r := (denotes_one.le_iff hx).1 hle
    simpa [hle, habove] using denotes_one
  · have hbelow : r ≤ 1 :=
      (not_le.1 fun hone => hle ((denotes_one.le_iff hx).2 hone)).le
    simpa [hle, hbelow] using hx

end UnitInterval

end Resemblance.Double
