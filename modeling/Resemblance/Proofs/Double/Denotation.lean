import Mathlib
import Resemblance.Decimal.Binary
import Resemblance.Proofs.Double.Operations

/-!
# The numbers that doubles denote

A double that is not negative denotes a real number, and no two of them denote
the same one.  Arithmetic on doubles is arithmetic on these numbers with every
result rounded, as long as it stays below the largest double.
-/

namespace Resemblance.Double

open Float.Model

section Packing

variable {m : ℕ} {e : ℤ} {hm : 0 < m}

theorem ofNat_ne
    {w k : ℕ} {v : BitVec w}
    (hk : k < 2 ^ w)
    (hne : k ≠ v.toNat) :
    BitVec.ofNat w k ≠ v := by
  rintro rfl
  exact hne (Nat.mod_eq_of_lt hk).symm

theorem pack_finite_eq
    (hlow : -1074 ≤ e)
    (hhigh : e ≤ 971) :
    UnpackedFloat.pack .binary64 (.finite .positive m e hm) =
      UnpackedFloat.packComponents .binary64 .positive
        (if m.log2 = 52 then BitVec.ofNat 11 (e + 1075).toNat else 0)
        (BitVec.ofNat 52 m) := by
  have hbias :
      (e + Format.binary64.exponentBias +
        Format.binary64.mantissaBitsWithoutImplicit) =
      e + 1075 := by
    change e + (1023 : ℕ) + (52 : ℕ) = e + 1075
    push_cast
    ring
  have hfits : ¬ 2 ^ Format.binary64.exponentBits ≤ (e + 1075).toNat + 1 := by
    change ¬ 2048 ≤ (e + 1075).toNat + 1
    omega
  have hdigits : m.log2 + 1 = Format.binary64.mantissaBits ↔ m.log2 = 52 := by
    change m.log2 + 1 = 53 ↔ m.log2 = 52
    omega
  unfold UnpackedFloat.pack
  simp only [hbias, hfits, if_false, hdigits]
  split <;> rfl

theorem unpack_pack_normal
    (hfull : 2 ^ 52 ≤ m)
    (hsmall : m < 2 ^ 53)
    (hlow : -1074 ≤ e)
    (hhigh : e ≤ 971) :
    UnpackedFloat.unpack .binary64
      (UnpackedFloat.pack .binary64 (.finite .positive m e hm)) =
      .finite .positive m e hm := by
  have hlog : m.log2 = 52 := (Nat.log2_eq_iff hm.ne').2 ⟨hfull, hsmall⟩
  have hexponent : (BitVec.ofNat 11 (e + 1075).toNat).toNat =
      (e + 1075).toNat :=
    Nat.mod_eq_of_lt (by omega)
  have hfinite : BitVec.ofNat 11 (e + 1075).toNat ≠ -1#11 := by
    apply ofNat_ne (by omega)
    change (e + 1075).toNat ≠ 2047
    omega
  have hnonzero : BitVec.ofNat 11 (e + 1075).toNat ≠ 0#11 := by
    apply ofNat_ne (by omega)
    change (e + 1075).toNat ≠ 0
    omega
  have hmantissa : (1#1 ++ BitVec.ofNat 52 m).toNat = m := by
    rw [BitVec.toNat_append, BitVec.toNat_ofNat,
      ← Nat.shiftLeft_add_eq_or_of_lt (by omega)]
    change 2 ^ 52 + m % 2 ^ 52 = m
    omega
  rw [pack_finite_eq hlow hhigh, if_pos hlog]
  unfold UnpackedFloat.unpack
  simp only [UnpackedFloat.unpackMantissa_packComponents,
    UnpackedFloat.unpackExponent_packComponents,
    UnpackedFloat.unpackSign_packComponents,
    UnpackedFloat.Sign.ofBitVec_toBitVec, hfinite, hnonzero, hexponent,
    hmantissa, if_false]
  congr 1
  change ((e + 1075).toNat : ℤ) - ((1023 : ℕ) + (52 : ℕ)) = e
  omega

theorem unpack_pack_subnormal (hsmall : m < 2 ^ 52) :
    UnpackedFloat.unpack .binary64
        (UnpackedFloat.pack .binary64 (.finite .positive m (-1074) hm)) =
      .finite .positive m (-1074) hm := by
  have hlog : m.log2 ≠ 52 := ((Nat.log2_lt hm.ne').2 hsmall).ne
  have hmantissa : (BitVec.ofNat 52 m).toNat = m := Nat.mod_eq_of_lt hsmall
  have hnonzero : BitVec.ofNat 52 m ≠ 0#52 := ofNat_ne hsmall hm.ne'
  rw [pack_finite_eq (by omega) (by omega), if_neg hlog]
  unfold UnpackedFloat.unpack
  simp only [UnpackedFloat.unpackMantissa_packComponents,
    UnpackedFloat.unpackExponent_packComponents,
    UnpackedFloat.unpackSign_packComponents,
    UnpackedFloat.Sign.ofBitVec_toBitVec, hnonzero, hmantissa]
  rfl

theorem unpack_pack_finite
    (hc : Canonical m e)
    (hhigh : e ≤ 971) :
    (pack (.finite .positive m e hm)).unpack = .finite .positive m e hm := by
  rcases Nat.lt_or_ge m (2 ^ 52) with hsmall | hfull
  · have hlow : e = -1074 := hc.full.resolve_right (Nat.not_le.2 hsmall)
    subst e
    exact unpack_pack_subnormal hsmall
  · exact unpack_pack_normal hfull hc.small hc.low hhigh

theorem unpack_pack_infinity (sign : UnpackedFloat.Sign) :
    (pack (.infinity sign)).unpack = .infinity sign := by
  cases sign <;> rfl

theorem pack_finite_of_large (hhigh : 971 < e) :
    pack (.finite .positive m e hm) = pack (.infinity .positive) := by
  have hoverflow : 2 ^ Format.binary64.exponentBits ≤
      (e + Format.binary64.exponentBias +
        Format.binary64.mantissaBitsWithoutImplicit).toNat + 1 := by
    change 2048 ≤ (e + (1023 : ℕ) + (52 : ℕ)).toNat + 1
    omega
  have hpacked : UnpackedFloat.pack .binary64 (.finite .positive m e hm) =
      UnpackedFloat.pack .binary64 (.infinity .positive) := by
    unfold UnpackedFloat.pack
    simp only [hoverflow, if_true]
  unfold pack
  simp only [hpacked]

end Packing

section Denotation

/-- The double `x` stands for the number `r`, which is zero or positive. -/
inductive Denotes : Float → ℝ → Prop
  | zero : Denotes (.ofModel (pack (.zero .positive))) 0
  | finite (m : ℕ) (e : ℤ) (hm : 0 < m) : Canonical m e → e ≤ 971 →
      Denotes (.ofModel (pack (.finite .positive m e hm))) (m * 2 ^ e)

theorem Canonical.eq
    {m n : ℕ} {e f : ℤ}
    (hc : Canonical m e)
    (hd : Canonical n f)
    (heq : (m * 2 ^ e : ℝ) = n * 2 ^ f) :
    m = n ∧ e = f := by
  have hexponent : e = f := by
    rw [← hc.lastPlace_eq, heq, hd.lastPlace_eq]
  subst f
  have hpos : (0 : ℝ) < 2 ^ e := by positivity
  exact ⟨by exact_mod_cast mul_right_cancel₀ hpos.ne' heq, rfl⟩

theorem Canonical.value_pos
    {m : ℕ} {e : ℤ}
    (hc : Canonical m e) :
    (0 : ℝ) < m * 2 ^ e := by
  have hm : (0 : ℝ) < m := by exact_mod_cast hc.pos
  positivity

/-- No two doubles denote the same number. -/
theorem Denotes.eq
    {x y : Float} {r : ℝ}
    (hx : Denotes x r)
    (hy : Denotes y r) :
    x = y := by
  cases hx with
  | zero =>
      generalize hr : (0 : ℝ) = r at hy
      cases hy with
      | zero => rfl
      | finite n f hn hd hhigh => exact absurd hr hd.value_pos.ne
  | finite m e hm hc hhigh =>
      generalize hr : (m * 2 ^ e : ℝ) = r at hy
      cases hy with
      | zero => exact absurd hr hc.value_pos.ne'
      | finite n f hn hd hhigh =>
          obtain ⟨rfl, rfl⟩ := hc.eq hd hr
          rfl

theorem rounded_zero : rounded 0 = 0 := by
  have hmantissa : mantissa 0 = 0 := by
    rw [mantissa, zero_div]
    exact nearestEven_eq le_rfl (by norm_num)
  rw [rounded, hmantissa, Nat.cast_zero, zero_mul]

theorem denotes_of_roundsTo
    {r : ℝ} {u : UnpackedFloat}
    (h : RoundsTo .positive r u)
    (hr : 0 ≤ r)
    (hrange : r < 2 ^ (1023 : ℤ)) :
    Denotes (.ofModel (pack u)) (rounded r) := by
  cases h with
  | zero hzero =>
      rw [hzero]
      exact .zero
  | finite m e hm hc hplace hvalue =>
      have hpos : 0 < r := by
        apply hr.lt_of_ne
        rintro rfl
        rw [rounded_zero] at hvalue
        exact hc.value_pos.ne hvalue
      have hlog : Int.log 2 r < 1023 :=
        (Int.lt_zpow_iff_log_lt one_lt_two hpos).1 (by rwa [Nat.cast_ofNat])
      rw [hvalue]
      apply Denotes.finite m e hm hc
      unfold lastPlace at hplace
      omega

end Denotation

section Arithmetic

variable {x y : Float} {r s : ℝ}

theorem denotes_nearestNat
    {n : ℕ}
    (hrange : (n : ℝ) < 2 ^ (1023 : ℤ)) :
    Denotes (Decimal.nearestNat n) (rounded n) := by
  rcases Nat.eq_zero_or_pos n with rfl | hn
  · rw [Nat.cast_zero, rounded_zero]
    exact .zero
  · exact denotes_of_roundsTo (roundsTo_ofNat hn) (Nat.cast_nonneg n) hrange

theorem Denotes.mul
    (hx : Denotes x r)
    (hy : Denotes y s)
    (hrange : r * s < 2 ^ (1023 : ℤ)) :
    Denotes (x * y) (rounded (r * s)) := by
  change Denotes
    (.ofModel
      (pack (UnpackedFloat.mul .binary64 x.toModel.unpack y.toModel.unpack))) _
  cases hx with
  | zero =>
      rw [zero_mul, rounded_zero]
      cases hy with
      | zero =>
          exact .zero
      | finite n f hn hd hhigh =>
          rw [unpack_pack_finite hd hhigh]
          exact .zero
  | finite m e hm hc hhigh =>
      cases hy with
      | zero =>
          rw [mul_zero, rounded_zero, unpack_pack_finite hc hhigh]
          exact .zero
      | finite n f hn hd hhigh' =>
          rw [unpack_pack_finite hc hhigh, unpack_pack_finite hd hhigh']
          exact denotes_of_roundsTo (roundsTo_mul hc hd) (by positivity) hrange

theorem Denotes.div
    (hx : Denotes x r)
    (hy : Denotes y s)
    (hs : 0 < s)
    (hrange : r / s < 2 ^ (1023 : ℤ)) :
    Denotes (x / y) (rounded (r / s)) := by
  change Denotes
    (.ofModel
      (pack (UnpackedFloat.div .binary64 x.toModel.unpack y.toModel.unpack))) _
  cases hy with
  | zero => exact absurd hs (lt_irrefl 0)
  | finite n f hn hd hhigh' =>
      cases hx with
      | zero =>
          rw [zero_div, rounded_zero, unpack_pack_finite hd hhigh']
          exact .zero
      | finite m e hm hc hhigh =>
          rw [unpack_pack_finite hc hhigh, unpack_pack_finite hd hhigh']
          exact denotes_of_roundsTo roundsTo_div (by positivity) hrange

theorem Denotes.sqrt
    (hx : Denotes x r)
    (hrange : √r < 2 ^ (1023 : ℤ)) :
    Denotes x.sqrt (rounded √r) := by
  change Denotes
    (.ofModel (pack (UnpackedFloat.sqrt .binary64 x.toModel.unpack))) _
  cases hx with
  | zero =>
      rw [Real.sqrt_zero, rounded_zero]
      exact .zero
  | finite m e hm hc hhigh =>
      rw [unpack_pack_finite hc hhigh]
      exact denotes_of_roundsTo roundsTo_sqrt (Real.sqrt_nonneg _) hrange

theorem Denotes.beq_zero
    (hx : Denotes x r)
    (hr : 0 < r) :
    (x == 0.0) = false := by
  cases hx with
  | zero => exact absurd hr (lt_irrefl 0)
  | finite m e hm hc hhigh =>
      change UnpackedFloat.beq (pack (.finite .positive m e hm)).unpack
        (0.0 : Float).toModel.unpack = false
      rw [unpack_pack_finite hc hhigh]
      rfl

theorem denotes_one : Denotes 1.0 1 := by
  have hone :=
    Denotes.finite (2 ^ 52) (-52) (by norm_num)
      (canonical_two_pow (by norm_num))
    (by norm_num)
  norm_num at hone
  exact hone

end Arithmetic

section Exactness

variable {x : Float} {r : ℝ}

theorem rounded_one : rounded 1 = 1 := by
  have hone := (canonical_two_pow (by norm_num : -1074 ≤ (-52 : ℤ))).rounded_eq
  norm_num at hone
  exact hone

theorem Denotes.div_self_eq_one
    (hx : Denotes x r)
    (hr : 0 < r) :
    x / x = 1.0 := by
  have hquotient : r / r = 1 := div_self hr.ne'
  have hrange : r / r < 2 ^ (1023 : ℤ) := by
    rw [hquotient]
    exact one_lt_zpow₀ one_lt_two (by norm_num)
  have hdenotes := hx.div hx hr hrange
  rw [hquotient, rounded_one] at hdenotes
  exact hdenotes.eq denotes_one

theorem Denotes.rounded_sqrt
    (hx : Denotes x r)
    (hlow : (2 : ℝ) ^ (-511 : ℤ) ≤ r) :
    rounded √(rounded (r * r)) = r := by
  cases hx with
  | zero =>
      exact absurd hlow (not_le.2 (by positivity))
  | finite m e hm hc hhigh =>
      apply hc.rounded_sqrt
      have hlog : -511 ≤ m.log2 + e := by
        rw [← log_eq_log2 hm]
        exact (Int.zpow_le_iff_le_log one_lt_two hc.value_pos).1
          (by rwa [Nat.cast_ofNat])
      have hdigits : m.log2 < 53 := (Nat.log2_lt hm.ne').2 hc.small
      omega

/-- The root of the square of a double is that double, unless the square leaves
the range. -/
theorem Denotes.sqrt_mul_self
    (hx : Denotes x r)
    (hlow : (2 : ℝ) ^ (-511 : ℤ) ≤ r)
    (hhigh : r < 2 ^ (511 : ℤ)) :
    (x * x).sqrt = x := by
  have hr : 0 < r := lt_of_lt_of_le (by positivity) hlow
  have hhigh' : r * r < 2 ^ (1022 : ℤ) := by
    calc r * r < 2 ^ (511 : ℤ) * 2 ^ (511 : ℤ) := by gcongr
      _ = 2 ^ (1022 : ℤ) := by
          rw [← zpow_add₀ two_ne_zero]
          norm_num
  have hproduct := hx.mul hx (hhigh'.trans (by gcongr <;> norm_num))
  have hroot : √(rounded (r * r)) < 2 ^ (1023 : ℤ) := by
    have herror :=
      (abs_le.1 (abs_rounded_sub_le_mul (two_zpow_le_mul_self hlow))).2
    calc √(rounded (r * r)) ≤ 2 * r := by
          rw [Real.sqrt_le_left (by positivity)]
          nlinarith
      _ < 2 * 2 ^ (511 : ℤ) := by gcongr
      _ = 2 ^ (512 : ℤ) := by
          rw [← zpow_one_add₀ two_ne_zero]
          norm_num
      _ ≤ 2 ^ (1023 : ℤ) := by gcongr <;> norm_num
  have hdenotes := hproduct.sqrt hroot
  rw [hx.rounded_sqrt hlow] at hdenotes
  exact hdenotes.eq hx

end Exactness

section Naturals

variable {n : ℕ}

theorem two_zpow_le_natCast (hpos : 0 < n) : (2 : ℝ) ^ (-1022 : ℤ) ≤ n := by
  have hone : (1 : ℝ) ≤ n := by exact_mod_cast hpos
  calc (2 : ℝ) ^ (-1022 : ℤ) ≤ 2 ^ (0 : ℤ) := by gcongr <;> norm_num
    _ ≤ n := by simpa using hone

/-- A whole number that fits into sixty-four bits is far from both ends of the
range. -/
theorem denotes_nearestNat_of_lt
    (hpos : 0 < n)
    (hsmall : n < 2 ^ 64) :
    ∃ r, Denotes (Decimal.nearestNat n) r ∧ (2 : ℝ) ^ (-511 : ℤ) ≤ r ∧
      r < 2 ^ (511 : ℤ) := by
  have hone : (1 : ℝ) ≤ n := by exact_mod_cast hpos
  have hsmall' : (n : ℝ) < 2 ^ (64 : ℤ) := by exact_mod_cast hsmall
  obtain ⟨hbelow, habove⟩ :=
    abs_le.1 (abs_rounded_sub_le_mul (two_zpow_le_natCast hpos))
  refine ⟨rounded n, denotes_nearestNat ?_, ?_, ?_⟩
  · calc (n : ℝ) < 2 ^ (64 : ℤ) := hsmall'
      _ ≤ 2 ^ (1023 : ℤ) := by gcongr <;> norm_num
  · calc (2 : ℝ) ^ (-511 : ℤ) ≤ 2 ^ (-1 : ℤ) := by gcongr <;> norm_num
      _ ≤ rounded n := by
          norm_num
          linarith
  · calc rounded n ≤ 2 * n := by linarith
      _ < 2 * 2 ^ (64 : ℤ) := by gcongr
      _ = 2 ^ (65 : ℤ) := by norm_num
      _ ≤ 2 ^ (511 : ℤ) := by gcongr <;> norm_num

/-- Zero has no part in a whole number, not even in one beyond the largest
double. -/
theorem zero_div_nearestNat (hpos : 0 < n) :
    0.0 / Decimal.nearestNat n = 0.0 := by
  have hone : (1 : ℝ) ≤ n := by exact_mod_cast hpos
  change Float.ofModel (pack (UnpackedFloat.div .binary64 (.zero .positive)
    (pack (UnpackedFloat.ofNat .binary64 n)).unpack)) = _
  generalize hu : UnpackedFloat.ofNat .binary64 n = u
  have hrounds := roundsTo_ofNat hpos
  rw [hu] at hrounds
  cases hrounds with
  | zero hzero =>
      have herror :=
        (abs_le.1 (abs_rounded_sub_le_mul (two_zpow_le_natCast hpos))).1
      rw [hzero] at herror
      linarith
  | finite m e hm hc hplace hvalue =>
      rcases le_or_gt e 971 with hhigh | hhigh
      · rw [unpack_pack_finite hc hhigh]
        rfl
      · rw [pack_finite_of_large hhigh, unpack_pack_infinity]
        rfl

theorem nearestNat_div_self
    (hpos : 0 < n)
    (hsmall : n < 2 ^ 64) :
    Decimal.nearestNat n / Decimal.nearestNat n = 1.0 := by
  obtain ⟨r, hdenotes, hlow, -⟩ := denotes_nearestNat_of_lt hpos hsmall
  exact hdenotes.div_self_eq_one (lt_of_lt_of_le (by positivity) hlow)

theorem sqrt_nearestNat_mul_self
    (hpos : 0 < n)
    (hsmall : n < 2 ^ 64) :
    (Decimal.nearestNat n * Decimal.nearestNat n).sqrt =
      Decimal.nearestNat n := by
  obtain ⟨r, hdenotes, hlow, hhigh⟩ := denotes_nearestNat_of_lt hpos hsmall
  exact hdenotes.sqrt_mul_self hlow hhigh

theorem nearestNat_beq_zero
    (hpos : 0 < n)
    (hsmall : n < 2 ^ 64) :
    (Decimal.nearestNat n == 0.0) = false := by
  obtain ⟨r, hdenotes, hlow, -⟩ := denotes_nearestNat_of_lt hpos hsmall
  exact hdenotes.beq_zero (lt_of_lt_of_le (by positivity) hlow)

end Naturals

end Resemblance.Double
