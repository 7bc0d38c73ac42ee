import Resemblance.Proofs.Double.Value

/-!
# Beyond the largest double

Two to the 1024th is the first number that is rounded to infinity.  Products,
quotients and roots of positive doubles may be infinite or undefined, but they
never get a sign, and a part of an infinite whole is zero or undefined.
-/

namespace Resemblance.Double

open Float.Model Decimal

section Unsigned

/-- The unpacked forms without a minus sign. -/
inductive Unsigned : UnpackedFloat → Prop
  | undefined : Unsigned .notANumber
  | infinite : Unsigned (.infinity .positive)
  | zero : Unsigned (.zero .positive)
  | finite (m : ℕ) (e : ℤ) (hm : 0 < m) : Canonical m e →
    Unsigned (.finite .positive m e hm)

variable {u v : UnpackedFloat}

theorem RoundsTo.unsigned
    {r : ℝ}
    (h : RoundsTo .positive r u) :
    Unsigned u := by
  cases h with
  | zero hzero => exact .zero
  | finite m e hm hc hplace hvalue => exact .finite m e hm hc

/-- Packing makes large numbers infinite. -/
theorem Unsigned.unpack_pack (hu : Unsigned u) : Unsigned (pack u).unpack := by
  cases hu with
  | undefined => exact .undefined
  | infinite => exact .infinite
  | zero => exact .zero
  | finite m e hm hc =>
      rcases le_or_gt e 971 with hhigh | hhigh
      · rw [unpack_pack_finite hc hhigh]
        exact .finite m e hm hc
      · rw [pack_finite_of_large hhigh, unpack_pack_infinity]
        exact .infinite

theorem Unsigned.mul
    (hu : Unsigned u)
    (hv : Unsigned v) :
    Unsigned (UnpackedFloat.mul .binary64 u v) := by
  cases hu <;> cases hv
  case finite.finite m e hm hc n f hn hd => exact (roundsTo_mul hc hd).unsigned
  all_goals constructor

theorem Unsigned.div
    (hu : Unsigned u)
    (hv : Unsigned v) :
    Unsigned (UnpackedFloat.div .binary64 u v) := by
  cases hu <;> cases hv
  case finite.finite m e hm hc n f hn hd => exact roundsTo_div.unsigned
  all_goals constructor

theorem Unsigned.sqrt (hu : Unsigned u) :
    Unsigned (UnpackedFloat.sqrt .binary64 u) := by
  cases hu
  case finite m e hm hc => exact roundsTo_sqrt.unsigned
  all_goals constructor

theorem unsigned_ofNat (n : ℕ) :
    Unsigned (UnpackedFloat.ofNat .binary64 n) := by
  rcases Nat.eq_zero_or_pos n with rfl | hn
  · exact .zero
  · exact (roundsTo_ofNat hn).unsigned

theorem Unsigned.inUnit_smaller_one
    {x : Float}
    (hx : Unsigned x.toModel.unpack) :
    InUnit (Score.smaller x 1.0) := by
  have hpacked := ofModel_pack_unpack x
  generalize hu : x.toModel.unpack = u at hx hpacked
  subst x
  cases hx with
  | undefined => exact inUnit_one
  | infinite => exact inUnit_one
  | zero => exact .of Denotes.zero.smaller_one (min_le_right _ _)
  | finite m e hm hc =>
      exact .of (denotes_of_unpack_eq hu).smaller_one (min_le_right _ _)

end Unsigned

section Infinity

variable {u : UnpackedFloat} {x : Float} {r : ℝ} {k n : ℕ}

/-- The number itself or infinity, as its rounded value tells. -/
theorem RoundsTo.denotes_or_infinite
    (h : RoundsTo .positive r u) :
    (Denotes (.ofModel (pack u)) (rounded r) ∧ rounded r < 2 ^ (1024 : ℤ)) ∨
      (Float.ofModel (pack u) = Score.infinity ∧
        2 ^ (1024 : ℤ) ≤ rounded r) := by
  cases h with
  | zero hzero =>
      rw [hzero]
      exact .inl ⟨.zero, by positivity⟩
  | finite m e hm hc hplace hvalue =>
      rw [hvalue]
      rcases le_or_gt e 971 with hhigh | hhigh
      · refine .inl ⟨.finite m e hm hc hhigh, ?_⟩
        have hsmall : (m : ℝ) < 2 ^ 53 := by exact_mod_cast hc.small
        calc (m * 2 ^ e : ℝ) < 2 ^ 53 * 2 ^ e := by gcongr
          _ ≤ 2 ^ 53 * 2 ^ (971 : ℤ) := by
              gcongr
              exact one_le_two
          _ = 2 ^ (1024 : ℤ) := by
              rw [← zpow_natCast, ← zpow_add₀ two_ne_zero]
              rfl
      · have hlow := hc.low
        have hfull : (2 : ℝ) ^ 52 ≤ m := by
          exact_mod_cast hc.full.resolve_left (by omega)
        refine .inr ⟨congrArg Float.ofModel (pack_finite_of_large hhigh), ?_⟩
        calc (2 : ℝ) ^ (1024 : ℤ) = 2 ^ 52 * 2 ^ (972 : ℤ) := by
              rw [← zpow_natCast, ← zpow_add₀ two_ne_zero]
              rfl
          _ ≤ 2 ^ 52 * 2 ^ e := by
              gcongr
              · exact one_le_two
              · omega
          _ ≤ m * 2 ^ e := by gcongr

theorem nearestNat_denotes_or_infinite (n : ℕ) :
    (Denotes (nearestNat n) (rounded n) ∧ rounded n < 2 ^ (1024 : ℤ)) ∨
      (nearestNat n = Score.infinity ∧ 2 ^ (1024 : ℤ) ≤ rounded n) := by
  rcases Nat.eq_zero_or_pos n with rfl | hn
  · rw [Nat.cast_zero, rounded_zero]
    exact .inl ⟨.zero, by positivity⟩
  · exact (roundsTo_ofNat hn).denotes_or_infinite

theorem Denotes.div_infinity (hx : Denotes x r) : x / Score.infinity = 0.0 := by
  change Float.ofModel (pack (UnpackedFloat.div .binary64 x.toModel.unpack
    (pack (.infinity .positive)).unpack)) = _
  cases hx with
  | zero => rfl
  | finite m e hm hc hhigh =>
      rw [unpack_pack_finite hc hhigh, unpack_pack_infinity]
      rfl

end Infinity

section Parts

/-- A double of the unit interval, or the undefined one. -/
inductive InUnitOrUndefined : Float → Prop
  | inUnit {x : Float} : InUnit x → InUnitOrUndefined x
  | undefined : InUnitOrUndefined (.ofModel (pack .notANumber))

variable {x : Float} {k n : ℕ}

/-- A part of a whole number of any size. -/
theorem inUnitOrUndefined_nearestNat_div
    (hpos : 0 < n)
    (hkn : k ≤ n) :
    InUnitOrUndefined (nearestNat k / nearestNat n) := by
  have hle : rounded k ≤ rounded n :=
    rounded_mono (Nat.cast_nonneg k) (by exact_mod_cast hkn)
  rcases nearestNat_denotes_or_infinite k with ⟨hk, -⟩ | ⟨hk, hlarge⟩ <;>
    rcases nearestNat_denotes_or_infinite n with ⟨hn, hsmall⟩ | ⟨hn, -⟩
  · exact .inUnit
      (hk.inUnit_div hn (zero_lt_one.trans_le (one_le_rounded_natCast hpos))
        hle)
  · rw [hn, hk.div_infinity]
    exact .inUnit inUnit_zero
  · exact absurd hsmall (not_lt.2 (hlarge.trans hle))
  · rw [hk, hn]
    exact .undefined

theorem InUnitOrUndefined.one_sub
    (hx : InUnitOrUndefined x) :
    InUnitOrUndefined (1.0 - x) := by
  cases hx with
  | inUnit hunit => exact .inUnit hunit.one_sub
  | undefined => exact .undefined

end Parts

end Resemblance.Double
