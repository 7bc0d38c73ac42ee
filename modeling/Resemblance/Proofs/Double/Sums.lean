import Resemblance.Proofs.Double.Monotone

/-!
# Sums and differences of doubles

Two doubles are brought to the smaller of their exponents, where their sum and
their difference are whole multiples, and the multiple is rounded once.  A
difference is taken here of a larger and a smaller number only.
-/

namespace Resemblance.Double

open Float.Model Float.Model.UnpackedFloat

section Alignment

variable {m n : ℕ} {e f : ℤ}

theorem roundsTo_normalize
    (a : ℕ)
    (t : ℤ) :
    RoundsTo .positive (a * 2 ^ t)
      (UnpackedFloat.normalize .binary64 a t .positive) := by
  rcases Nat.eq_zero_or_pos a with rfl | hpos
  · have hzero : rounded ((0 : ℕ) * 2 ^ t) = 0 := by
      rw [Nat.cast_zero, zero_mul, rounded_zero]
    exact .zero hzero
  · have hgt : compare (a : ℤ) 0 = .gt := Int.compare_eq_gt.2 (by omega)
    have hround : UnpackedFloat.normalize .binary64 a t .positive =
        UnpackedFloat.round .binary64 .positive a t := by
      unfold UnpackedFloat.normalize
      rw [hgt]
      rfl
    rw [hround]
    exact roundsTo_round hpos t

/-- A mantissa brought down to a smaller exponent keeps its value. -/
theorem aligned_mul_zpow
    {t : ℤ}
    (ht : t ≤ e) :
    ((m <<< (e - t).toNat : ℕ) : ℝ) * 2 ^ t = m * 2 ^ e :=
  shiftLeft_mul_zpow (by omega)

theorem roundsTo_add
    {hm : 0 < m} {hn : 0 < n} :
    RoundsTo .positive (m * 2 ^ e + n * 2 ^ f)
      (UnpackedFloat.add .binary64 (.finite .positive m e hm)
        (.finite .positive n f hn)) := by
  have hsum : (m * 2 ^ e + n * 2 ^ f : ℝ) =
      (m <<< (e - min e f).toNat + n <<< (f - min e f).toNat : ℕ) *
        2 ^ min e f := by
    rw [Nat.cast_add, add_mul, aligned_mul_zpow (min_le_left e f),
      aligned_mul_zpow (min_le_right e f)]
  rw [hsum]
  exact roundsTo_normalize _ (min e f)

theorem roundsTo_sub
    {hm : 0 < m} {hn : 0 < n}
    (hle : (n * 2 ^ f : ℝ) ≤ m * 2 ^ e) :
    RoundsTo .positive (m * 2 ^ e - n * 2 ^ f)
      (UnpackedFloat.sub .binary64 (.finite .positive m e hm)
        (.finite .positive n f hn)) := by
  have hpower : (0 : ℝ) < 2 ^ min e f := by positivity
  have hless : n <<< (f - min e f).toNat ≤ m <<< (e - min e f).toNat := by
    rw [← aligned_mul_zpow (min_le_left e f),
      ← aligned_mul_zpow (min_le_right e f)] at hle
    exact_mod_cast le_of_mul_le_mul_right hle hpower
  have hdifference : (m * 2 ^ e - n * 2 ^ f : ℝ) =
      (m <<< (e - min e f).toNat - n <<< (f - min e f).toNat : ℕ) *
        2 ^ min e f := by
    rw [Nat.cast_sub hless, sub_mul, aligned_mul_zpow (min_le_left e f),
      aligned_mul_zpow (min_le_right e f)]
  have hcore :
      UnpackedFloat.sub .binary64 (.finite .positive m e hm)
        (.finite .positive n f hn) =
      UnpackedFloat.normalize .binary64
        (m <<< (e - min e f).toNat - n <<< (f - min e f).toNat : ℕ)
        (min e f) .positive := by
    rw [Nat.cast_sub hless]
    rfl
  rw [hdifference, hcore]
  exact roundsTo_normalize _ (min e f)

end Alignment

section Denotation

variable {x y : Float} {r s : ℝ}

theorem Denotes.nonneg (hx : Denotes x r) : 0 ≤ r := by
  cases hx with
  | zero => exact le_rfl
  | finite m e hm hc hhigh => exact hc.value_pos.le

/-- A double is rounded to itself. -/
theorem Denotes.rounded_eq (hx : Denotes x r) : rounded r = r := by
  cases hx with
  | zero => exact rounded_zero
  | finite m e hm hc hhigh => exact hc.rounded_eq

theorem Denotes.add
    (hx : Denotes x r)
    (hy : Denotes y s)
    (hrange : r + s < 2 ^ (1023 : ℤ)) :
    Denotes (x + y) (rounded (r + s)) := by
  change Denotes
    (.ofModel
      (pack (UnpackedFloat.add .binary64 x.toModel.unpack y.toModel.unpack))) _
  cases hx with
  | zero =>
      rw [zero_add, hy.rounded_eq]
      cases hy with
      | zero =>
          exact .zero
      | finite n f hn hd hhigh =>
          rw [unpack_pack_finite hd hhigh]
          exact .finite n f hn hd hhigh
  | finite m e hm hc hhigh =>
      cases hy with
      | zero =>
          rw [add_zero, hc.rounded_eq, unpack_pack_finite hc hhigh]
          exact .finite m e hm hc hhigh
      | finite n f hn hd hhigh' =>
          rw [unpack_pack_finite hc hhigh, unpack_pack_finite hd hhigh']
          exact denotes_of_roundsTo roundsTo_add (by positivity) hrange

theorem Denotes.sub
    (hx : Denotes x r)
    (hy : Denotes y s)
    (hle : s ≤ r)
    (hrange : r < 2 ^ (1023 : ℤ)) :
    Denotes (x - y) (rounded (r - s)) := by
  have hnonneg : 0 ≤ r - s := sub_nonneg.2 hle
  have hrange' : r - s < 2 ^ (1023 : ℤ) :=
    (sub_le_self r hy.nonneg).trans_lt hrange
  change Denotes
    (.ofModel
      (pack (UnpackedFloat.sub .binary64 x.toModel.unpack y.toModel.unpack))) _
  cases hx with
  | zero =>
      cases hy with
      | zero =>
          rw [sub_zero, rounded_zero]
          exact .zero
      | finite n f hn hd hhigh => exact absurd hle (not_le.2 hd.value_pos)
  | finite m e hm hc hhigh =>
      cases hy with
      | zero =>
          rw [sub_zero, hc.rounded_eq, unpack_pack_finite hc hhigh]
          exact .finite m e hm hc hhigh
      | finite n f hn hd hhigh' =>
          rw [unpack_pack_finite hc hhigh, unpack_pack_finite hd hhigh']
          exact denotes_of_roundsTo (roundsTo_sub hle) hnonneg hrange'

end Denotation

end Resemblance.Double
