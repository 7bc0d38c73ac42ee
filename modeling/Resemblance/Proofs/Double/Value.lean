import Mathlib
import Resemblance.Proofs.Double.Order

/-!
# Doubles and their values

There are two zeros, and the negative one has the value zero as well.
Comparison sees nothing but values, a sum that starts at the positive zero does
not tell the two apart, and a double lies in the unit interval exactly when it
has a value there.
-/

namespace Resemblance.Double

open Float.Model Float.Model.UnpackedFloat

section Unpacking

variable {x : Float} {m : ℕ} {e : ℤ} {hm : 0 < m}

/-- A double is what its unpacked form packs to. -/
theorem ofModel_pack_unpack (x : Float) :
    Float.ofModel (pack x.toModel.unpack) = x :=
  Float.toBits_inj.1
    (UInt64.toBitVec_inj.1 (pack_unpack_of_valid x.toModel.valid))

/-- The bits of a finite double hold a canonical pair. -/
theorem canonical_of_unpack_eq
    {bits : BitVec Format.binary64.numBits} {sign : Sign}
    (hbits : UnpackedFloat.unpack .binary64 bits = .finite sign m e hm) :
    Canonical m e ∧ e ≤ 971 := by
  have hbias : (Format.binary64.exponentBias : ℤ) = 1023 := rfl
  have hsmall : (unpackMantissa bits).toNat < 2 ^ 52 :=
    (unpackMantissa bits).isLt
  have hexponent : (unpackExponent bits).toNat < 2 ^ 11 :=
    (unpackExponent bits).isLt
  unfold UnpackedFloat.unpack at hbits
  simp only at hbits
  split at hbits
  next => split at hbits <;> contradiction
  next hfinite =>
    split at hbits
    next hlowest =>
      split at hbits
      next => contradiction
      next =>
        obtain ⟨-, rfl, rfl⟩ := UnpackedFloat.finite.inj hbits
        have hzero : (unpackExponent bits).toNat = 0 :=
          congrArg BitVec.toNat hlowest
        rw [hzero, hbias]
        exact ⟨⟨hm, by omega, by omega, by omega⟩, by omega⟩
    next hnormal =>
      obtain ⟨-, rfl, rfl⟩ := UnpackedFloat.finite.inj hbits
      have hmantissa : (1#1 ++ unpackMantissa bits).toNat =
          2 ^ 52 + (unpackMantissa bits).toNat := by
        rw [BitVec.toNat_append, ← Nat.shiftLeft_add_eq_or_of_lt hsmall]
        rfl
      have hlow : (unpackExponent bits).toNat ≠ 0 := fun hzero =>
        hnormal (BitVec.eq_of_toNat_eq hzero)
      have hhigh : (unpackExponent bits).toNat ≠ 2047 := fun hfull =>
        hfinite (BitVec.eq_of_toNat_eq hfull)
      rw [hmantissa, hbias]
      exact ⟨⟨by omega, by omega, by omega, by omega⟩, by omega⟩

theorem denotes_of_unpack_eq
    (hx : x.toModel.unpack = .finite .positive m e hm) :
    Denotes x (m * 2 ^ e) := by
  obtain ⟨hc, hhigh⟩ := canonical_of_unpack_eq hx
  rw [← ofModel_pack_unpack x, hx]
  exact .finite m e hm hc hhigh

end Unpacking

section Values

/-- The number that a double stands for; both zeros stand for zero. -/
inductive HasValue : Float → ℝ → Prop
  | denoted {x : Float} {r : ℝ} : Denotes x r → HasValue x r
  | negativeZero : HasValue (.ofModel (pack (.zero .negative))) 0

variable {x y : Float} {r s : ℝ}

theorem HasValue.nonneg (hx : HasValue x r) : 0 ≤ r := by
  cases hx with
  | denoted hr => exact hr.nonneg
  | negativeZero => exact le_rfl

/-- A double of the same value and rank that denotes a number. -/
theorem HasValue.exists_denotes (hx : HasValue x r) :
    ∃ x', Denotes x' r ∧ Score.rank x = Score.rank x' ∧ x.isNaN = false := by
  cases hx with
  | denoted hr => exact ⟨x, hr, rfl, hr.isNaN_eq_false⟩
  | negativeZero => exact ⟨_, .zero, rfl, rfl⟩

theorem HasValue.le_iff
    (hx : HasValue x r)
    (hy : HasValue y s) :
    x ≤ y ↔ r ≤ s := by
  obtain ⟨x', hx', hrank, hnan⟩ := hx.exists_denotes
  obtain ⟨y', hy', hrank', hnan'⟩ := hy.exists_denotes
  rw [Score.le_iff, hrank, hrank', hx'.rank_le_iff hy']
  exact ⟨fun h => h.2.2, fun h => ⟨hnan, hnan', h⟩⟩

theorem HasValue.unique
    (hx : HasValue x r)
    (hx' : HasValue x s) :
    r = s := by
  have hself : x ≤ x := (hx.le_iff hx).2 le_rfl
  exact le_antisymm ((hx.le_iff hx').1 hself) ((hx'.le_iff hx).1 hself)

/-- Only zero has two doubles. -/
theorem HasValue.eq_of_pos
    (hx : HasValue x r)
    (hy : HasValue y r)
    (hpos : 0 < r) :
    x = y := by
  cases hx with
  | negativeZero => exact absurd hpos (lt_irrefl 0)
  | denoted hx =>
      cases hy with
      | negativeZero => exact absurd hpos (lt_irrefl 0)
      | denoted hy => exact hx.eq hy

theorem HasValue.inUnit_iff (hx : HasValue x r) :
    ComparisonSettings.inUnit x = true ↔ r ≤ 1 := by
  rw [ComparisonSettings.inUnit, Bool.and_eq_true, decide_eq_true_eq,
    decide_eq_true_eq, hx.le_iff (.denoted denotes_one)]
  exact ⟨fun h => h.2,
    fun h => ⟨((HasValue.denoted .zero).le_iff hx).2 hx.nonneg, h⟩⟩

/-- A double of the unit interval that has no value would lie beyond one of the
infinities or below zero. -/
theorem exists_hasValue_of_inUnit (hx : ComparisonSettings.inUnit x = true) :
    ∃ r, HasValue x r ∧ r ≤ 1 := by
  have hunit := hx
  rw [ComparisonSettings.inUnit, Bool.and_eq_true, decide_eq_true_eq,
    decide_eq_true_eq, Score.le_iff, Score.le_iff] at hunit
  obtain ⟨⟨-, hnan, hlow⟩, -, -, hhigh⟩ := hunit
  have hzero : Score.rank 0.0 = ⟨0, 0, 0⟩ := by rfl
  have hone : Score.rank 1.0 = ⟨1, -52, 2 ^ 52⟩ := by rfl
  rw [hzero] at hlow
  rw [hone] at hhigh
  have hrank : Score.rank x = Score.Rank.ofUnpacked x.toModel.unpack := rfl
  have hvalue : ∀ {r : ℝ}, HasValue x r → ∃ r, HasValue x r ∧ r ≤ 1 :=
    fun hr => ⟨_, hr, hr.inUnit_iff.1 hx⟩
  cases hu : x.toModel.unpack with
  | notANumber =>
      change x.toModel.unpack.isNaN = false at hnan
      rw [hu] at hnan
      contradiction
  | infinity sign =>
      rw [hrank, hu] at hlow hhigh
      cases sign <;> simp [Score.Rank.ofUnpacked, Score.Rank.Le] at hlow hhigh
  | zero sign =>
      rw [← ofModel_pack_unpack x, hu] at hvalue ⊢
      cases sign with
      | positive => exact hvalue (.denoted .zero)
      | negative => exact hvalue .negativeZero
  | finite sign m e hm =>
      cases sign with
      | positive => exact hvalue (.denoted (denotes_of_unpack_eq hu))
      | negative =>
          rw [hrank, hu] at hlow
          simp [Score.Rank.ofUnpacked, Score.Rank.Le] at hlow

theorem inUnit_iff :
    ComparisonSettings.inUnit x = true ↔ ∃ r, HasValue x r ∧ r ≤ 1 :=
  ⟨exists_hasValue_of_inUnit, fun ⟨_, hr, hone⟩ => hr.inUnit_iff.2 hone⟩

open Classical in
/-- The number that a double stands for, zero if there is none. -/
noncomputable def value (x : Float) : ℝ :=
  if h : ∃ r, HasValue x r then h.choose else 0

theorem HasValue.value_eq (hx : HasValue x r) : value x = r := by
  have hexists : ∃ r, HasValue x r := ⟨r, hx⟩
  rw [value, dif_pos hexists]
  exact hexists.choose_spec.unique hx

theorem hasValue_value (hx : ComparisonSettings.inUnit x = true) :
    HasValue x (value x) := by
  obtain ⟨r, hr, -⟩ := exists_hasValue_of_inUnit hx
  rwa [hr.value_eq]

theorem isNaN_of_inUnit (hx : ComparisonSettings.inUnit x = true) :
    x.isNaN = false := by
  obtain ⟨_, -, -, hdefined⟩ := (hasValue_value hx).exists_denotes
  exact hdefined

theorem eq_of_le_of_ge
    (hx : ComparisonSettings.inUnit x = true)
    (hy : ComparisonSettings.inUnit y = true)
    (hpositive : 0.0 < x)
    (hxy : x ≤ y)
    (hyx : y ≤ x) :
    x = y := by
  have hx' := hasValue_value hx
  have hy' := hasValue_value hy
  have hsame : value y = value x :=
    le_antisymm ((hy'.le_iff hx').1 hyx) ((hx'.le_iff hy').1 hxy)
  rw [hsame] at hy'
  apply hx'.eq_of_pos hy'
  by_contra hzero
  have hle : x ≤ 0.0 := (hx'.le_iff (.denoted .zero)).2 (not_lt.1 hzero)
  exact (Score.not_lt_iff rfl (isNaN_of_inUnit hx)).2 hle hpositive

/-- A zero that is added has no sign. -/
theorem Denotes.add_hasValue
    (hx : Denotes x r)
    (hy : HasValue y s)
    (hrange : r + s < 2 ^ (1023 : ℤ)) :
    Denotes (x + y) (rounded (r + s)) := by
  cases hy with
  | denoted hs => exact hx.add hs hrange
  | negativeZero =>
      rw [add_zero, hx.rounded_eq]
      cases hx with
      | zero => exact .zero
      | finite m e hm hc hhigh =>
          change Denotes (.ofModel (pack (UnpackedFloat.add .binary64
            (pack (.finite .positive m e hm)).unpack
              (pack (.zero .negative)).unpack))) _
          rw [unpack_pack_finite hc hhigh]
          exact .finite m e hm hc hhigh

end Values

end Resemblance.Double
