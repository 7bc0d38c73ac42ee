import Resemblance.Proofs.Double.Nearest

/-!
# Rounding by shifts

A mantissa with a round bit and a sticky bit tells where a number lies between
two neighbouring multiples of the last place.  Shifts keep what the bits tell,
and the rounded mantissa is the nearest multiple.  A mantissa that has been
rounded up to one digit more is shifted once again, which loses nothing.
-/

namespace Resemblance.Double

open Float.Model Float.Model.UnpackedFloat

section Accuracy

/-- What an accuracy says about a number above the whole number `m`. -/
inductive Locates (m : ℕ) : Accuracy → ℝ → Prop
  | exact {y : ℝ} : y = m → Locates m .exact y
  | below {y : ℝ} : m < y → y < m + 1 / 2 → Locates m (.inexact .lt) y
  | tie {y : ℝ} : y = m + 1 / 2 → Locates m (.inexact .eq) y
  | above {y : ℝ} : m + 1 / 2 < y → y < m + 1 → Locates m (.inexact .gt) y

variable {m : ℕ} {accuracy : Accuracy} {y : ℝ}

theorem Locates.bounds (h : Locates m accuracy y) : m ≤ y ∧ y < m + 1 := by
  cases h <;> constructor <;> linarith

theorem Locates.floor_eq (h : Locates m accuracy y) : ⌊y⌋₊ = m := by
  obtain ⟨hlow, hhigh⟩ := h.bounds
  exact (Nat.floor_eq_iff ((Nat.cast_nonneg m).trans hlow)).2 ⟨hlow, hhigh⟩

theorem Locates.roundToNearestEven_eq (h : Locates m accuracy y) :
    accuracy.roundToNearestEven m = nearestEven y := by
  have hfloor := h.floor_eq
  unfold nearestEven
  rw [hfloor]
  cases h with
  | exact hexact =>
      rw [if_pos (by linarith)]
      rfl
  | below hlow hhigh =>
      rw [if_pos (by linarith)]
      rfl
  | tie htie =>
      rw [if_neg (by linarith), if_pos (by linarith)]
      rfl
  | above hlow hhigh =>
      have hne : ¬ y - m = 1 / 2 := by
        intro htie
        linarith
      rw [if_neg (by linarith), if_neg hne]
      rfl

end Accuracy

section Shifts

/-- What a mantissa with its two further bits says about a number. -/
def Extends (em : ExtendedMantissa) (y : ℝ) : Prop :=
  Locates em.mantissa em.accuracy y

variable {em : ExtendedMantissa} {y : ℝ}

theorem Extends.eq_of_bits
    (h : Extends em y)
    (hbits : (em.roundBit || em.stickyBit) = false) :
    y = em.mantissa := by
  obtain ⟨m, _ | _, _ | _⟩ := em
  case false.false =>
    change Locates m .exact y at h
    cases h with
    | exact hexact => exact hexact
  all_goals cases hbits

theorem Extends.bounds_of_bits
    (h : Extends em y)
    (hbits : (em.roundBit || em.stickyBit) = true) :
    em.mantissa < y ∧ y < em.mantissa + 1 := by
  obtain ⟨m, _ | _, _ | _⟩ := em
  case false.false =>
    cases hbits
  case false.true =>
    change Locates m (.inexact .lt) y at h
    cases h with
    | below hlow hhigh => constructor <;> linarith
  case true.false =>
    change Locates m (.inexact .eq) y at h
    cases h with
    | tie htie => constructor <;> linarith
  case true.true =>
    change Locates m (.inexact .gt) y at h
    cases h with
    | above hlow hhigh => constructor <;> linarith

theorem Extends.shiftRightOne (h : Extends em y) :
    Extends em.shiftRightOne (y / 2) := by
  have hhalf : (em.mantissa : ℝ) =
      2 * (em.mantissa / 2 : ℕ) + (em.mantissa % 2 : ℕ) := by
    exact_mod_cast (Nat.div_add_mod em.mantissa 2).symm
  change Extends
    ⟨em.mantissa / 2, em.mantissa % 2 != 0, em.roundBit || em.stickyBit⟩
    (y / 2)
  cases hbits : (em.roundBit || em.stickyBit) with
  | false =>
      have hexact := h.eq_of_bits hbits
      rcases Nat.mod_two_eq_zero_or_one em.mantissa with hparity | hparity
      · rw [hparity, Nat.cast_zero] at hhalf
        rw [hparity]
        exact Locates.exact (by linarith)
      · rw [hparity, Nat.cast_one] at hhalf
        rw [hparity]
        exact Locates.tie (by linarith)
  | true =>
      obtain ⟨hlow, hhigh⟩ := h.bounds_of_bits hbits
      rcases Nat.mod_two_eq_zero_or_one em.mantissa with hparity | hparity
      · rw [hparity, Nat.cast_zero] at hhalf
        rw [hparity]
        exact Locates.below (by linarith) (by linarith)
      · rw [hparity, Nat.cast_one] at hhalf
        rw [hparity]
        exact Locates.above (by linarith) (by linarith)

theorem Extends.shiftRight
    (h : Extends em y)
    (n : ℕ) :
    Extends (em >>> n) (y / 2 ^ n) := by
  change Extends (n.repeat ExtendedMantissa.shiftRightOne em) _
  induction n with
  | zero => simpa [Nat.repeat] using h
  | succ n ih =>
      rw [pow_succ, ← div_div]
      exact ih.shiftRightOne

theorem extends_ofMantissaAndAccuracy
    {m : ℕ} {accuracy : Accuracy}
    (h : Locates m accuracy y) :
    Extends (.ofMantissaAndAccuracy m accuracy) y := by
  rcases accuracy with _ | _ | _ | _ <;> exact h

end Shifts

section Rounding

theorem targetExponent_eq (t : ℤ) :
    Format.binary64.targetExponent t = max (t - 53) (-1074) := rfl

theorem targetExponent_eq_lastPlace
    {m : ℕ} {e : ℤ} {y : ℝ}
    (hy : 0 < y)
    (hlow : m ≤ y)
    (hhigh : y < m + 1)
    (hm : 0 < m ∨ e ≤ -1022) :
    Format.binary64.targetExponent (totalExponent m e) =
      lastPlace (y * 2 ^ e) := by
  have hscale : (0 : ℝ) < 2 ^ e := by positivity
  rw [targetExponent_eq, totalExponent, lastPlace]
  rcases Nat.eq_zero_or_pos m with rfl | hpos
  · have hlowest := hm.resolve_left (lt_irrefl 0)
    have hbelow : y * 2 ^ e < 2 ^ e := by
      rw [Nat.cast_zero, zero_add] at hhigh
      nlinarith
    have hlog : Int.log 2 (y * 2 ^ e) < e :=
      (Int.lt_zpow_iff_log_lt one_lt_two (by positivity)).1
        (by simpa using hbelow)
    rw [Nat.log2_zero]
    omega
  · have hlog : Int.log 2 (y * 2 ^ e) = m.log2 + e := by
      have hlow' : (2 : ℝ) ^ m.log2 ≤ y :=
        le_trans (by exact_mod_cast Nat.log2_self_le hpos.ne') hlow
      have hhigh' : y < 2 ^ (m.log2 + 1) := by
        have hnext : (m : ℝ) + 1 ≤ 2 ^ (m.log2 + 1) := by
          exact_mod_cast (Nat.lt_log2_self : m < 2 ^ (m.log2 + 1))
        exact lt_of_lt_of_le hhigh hnext
      exact log_mul_zpow hlow' hhigh' e
    rw [hlog]
    congr 1
    ring

theorem roundedMantissa_eq
    {em : ExtendedMantissa} {y : ℝ}
    (h : Extends em y) :
    em.roundedMantissa = nearestEven y :=
  Locates.roundToNearestEven_eq h

theorem shiftToExponent_eq
    (m : ℕ)
    (accuracy : Accuracy)
    {e t : ℤ} {n : ℕ}
    (hshift : (t - e).toNat = n) :
    shiftToExponent m e accuracy t =
      (ExtendedMantissa.ofMantissaAndAccuracy m accuracy >>> n, e + n) := by
  subst n
  rfl

/-- The first shift reaches the last place, and the mantissa is rounded
there. -/
theorem shiftToExponent_lastPlace
    {m : ℕ} {accuracy : Accuracy} {y : ℝ} {e : ℤ}
    (h : Locates m accuracy y)
    (hplace : e ≤ lastPlace (y * 2 ^ e)) :
    ∃ em,
      shiftToExponent m e accuracy (lastPlace (y * 2 ^ e)) =
          (em, lastPlace (y * 2 ^ e)) ∧
        em.roundedMantissa = mantissa (y * 2 ^ e) := by
  obtain ⟨n, hn⟩ := Int.le.dest hplace
  have hshift : (lastPlace (y * 2 ^ e) - e).toNat = n := by omega
  have hscaled : y / 2 ^ n = y * 2 ^ e / 2 ^ lastPlace (y * 2 ^ e) := by
    rw [← hn, zpow_add₀ two_ne_zero, zpow_natCast]
    field_simp
  have hextends := (extends_ofMantissaAndAccuracy h).shiftRight n
  rw [hscaled] at hextends
  refine ⟨_, ?_, roundedMantissa_eq hextends⟩
  rw [shiftToExponent_eq m accuracy hshift, hn]

/-- Nothing is left to shift unless rounding has given the mantissa one digit
more. -/
theorem shiftToTargetExponent_of_lt
    {n : ℕ} {e : ℤ}
    (hsmall : n < 2 ^ 53)
    (hlow : -1074 ≤ e) :
    shiftToTargetExponent .binary64 n e .exact = (⟨n, false, false⟩, e) := by
  have hlog : n.log2 ≤ 52 := by
    rcases Nat.eq_zero_or_pos n with rfl | hpos
    · exact Nat.zero_le 52
    · exact Nat.lt_succ_iff.1 ((Nat.log2_lt hpos.ne').2 hsmall)
  have hshift : (Format.binary64.targetExponent (totalExponent n e) - e).toNat =
      0 := by
    rw [targetExponent_eq, totalExponent]
    omega
  unfold shiftToTargetExponent
  rw [shiftToExponent_eq n .exact hshift, Nat.cast_zero, add_zero]
  rfl

theorem shiftToTargetExponent_two_pow
    {e : ℤ}
    (hlow : -1074 ≤ e) :
    shiftToTargetExponent .binary64 (2 ^ 53) e .exact =
      (⟨2 ^ 52, false, false⟩, e + 1) := by
  have hlog : (2 ^ 53 : ℕ).log2 = 53 := Nat.log2_two_pow
  have hshift :
      (Format.binary64.targetExponent (totalExponent (2 ^ 53) e) - e).toNat =
        1 := by
    rw [targetExponent_eq, totalExponent, hlog]
    omega
  unfold shiftToTargetExponent
  rw [shiftToExponent_eq (2 ^ 53) .exact hshift, Nat.cast_one]
  rfl

/-- The shifted mantissa with its exponent, or zero where no digit is left. -/
def assembled (sign : Sign) (shifted : ExtendedMantissa × ℤ) : UnpackedFloat :=
  if hn : shifted.1.mantissa = 0 then .zero sign
  else .finite sign shifted.1.mantissa shifted.2 (Nat.pos_of_ne_zero hn)

theorem roundWithAccuracy_eq
    {format : Format}
    (sign : Sign)
    {m : ℕ} {e t : ℤ} {accuracy : Accuracy} {em : ExtendedMantissa}
    {shifted : ExtendedMantissa × ℤ}
    (hfirst : shiftToTargetExponent format m e accuracy = (em, t))
    (hsecond :
      shiftToTargetExponent format em.roundedMantissa t .exact = shifted) :
    roundWithAccuracy format sign m e accuracy = assembled sign shifted := by
  change assembled sign (shiftToTargetExponent format
    (shiftToTargetExponent format m e accuracy).1.roundedMantissa
    (shiftToTargetExponent format m e accuracy).2 .exact) = _
  rw [hfirst, hsecond]

/-- The outcome of rounding the positive number `x`: zero or a canonical
pair. -/
inductive RoundsTo (sign : Sign) (x : ℝ) : UnpackedFloat → Prop
  | zero : rounded x = 0 → RoundsTo sign x (.zero sign)
  | finite (m : ℕ) (e : ℤ) (hm : 0 < m) :
      Canonical m e → e ≤ lastPlace x + 1 → rounded x = m * 2 ^ e →
      RoundsTo sign x (.finite sign m e hm)

theorem roundsTo_roundWithAccuracy
    {m : ℕ} {e : ℤ} {accuracy : Accuracy} {y : ℝ}
    (sign : Sign)
    (h : Locates m accuracy y)
    (hy : 0 < y)
    (hm : 0 < m ∨ e ≤ -1022)
    (hplace : e ≤ lastPlace (y * 2 ^ e)) :
    RoundsTo sign (y * 2 ^ e)
      (roundWithAccuracy .binary64 sign m e accuracy) := by
  have hx : 0 < y * 2 ^ e := by positivity
  have hlow := low_le_lastPlace (y * 2 ^ e)
  obtain ⟨em, hshift, hmantissa⟩ := shiftToExponent_lastPlace h hplace
  have hfirst : shiftToTargetExponent .binary64 m e accuracy =
      (em, lastPlace (y * 2 ^ e)) := by
    rw [← hshift, ← targetExponent_eq_lastPlace hy h.bounds.1 h.bounds.2 hm]
    rfl
  rcases (mantissa_le hx.le).eq_or_lt with hgrown | hsmall
  · have hsecond :
        shiftToTargetExponent .binary64 em.roundedMantissa
          (lastPlace (y * 2 ^ e))
        .exact = (⟨2 ^ 52, false, false⟩, lastPlace (y * 2 ^ e) + 1) := by
      rw [hmantissa, hgrown, shiftToTargetExponent_two_pow hlow]
    rw [roundWithAccuracy_eq sign hfirst hsecond, assembled,
      dif_neg (by norm_num)]
    apply RoundsTo.finite
    · exact canonical_two_pow (by omega)
    · exact le_rfl
    · rw [rounded, hgrown, zpow_add_one₀ two_ne_zero]
      push_cast
      ring
  · have hsecond :
        shiftToTargetExponent .binary64 em.roundedMantissa
            (lastPlace (y * 2 ^ e)) .exact =
          (⟨mantissa (y * 2 ^ e), false, false⟩, lastPlace (y * 2 ^ e)) := by
      rw [hmantissa, shiftToTargetExponent_of_lt hsmall hlow]
    rw [roundWithAccuracy_eq sign hfirst hsecond, assembled]
    rcases Nat.eq_zero_or_pos (mantissa (y * 2 ^ e)) with hzero | hpos
    · rw [dif_pos hzero]
      apply RoundsTo.zero
      rw [rounded, hzero, Nat.cast_zero, zero_mul]
    · rw [dif_neg hpos.ne']
      apply RoundsTo.finite
      · exact canonical_mantissa hx hpos hsmall
      · omega
      · rfl

end Rounding

end Resemblance.Double
