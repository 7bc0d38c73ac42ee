import Resemblance.Proofs.Double.Value

/-!
# The closest double

The numbers with fifty-three binary digits are spaced by the last place from one
power of two to the next, and more closely below.  No such number is therefore
nearer to a given one than the multiple of its last place that rounding takes.
Another one is as near only in the middle between the two, and no fraction with
few decimal places lies there.
-/

namespace Resemblance.Double

section Closest

/-- A number of fifty-three binary digits, none of them behind the last place of
all doubles. -/
inductive IsDouble : ℝ → Prop
  | of (m e : ℤ) : |m| < 2 ^ 53 → -1074 ≤ e → IsDouble (m * 2 ^ e)

theorem isDouble_of_eq
    {s : ℝ} {m e : ℤ}
    (hm : |m| < 2 ^ 53)
    (he : -1074 ≤ e)
    (hs : s = m * 2 ^ e) :
    IsDouble s :=
  hs ▸ .of m e hm he

theorem Canonical.isDouble
    {m : ℕ} {e : ℤ}
    (hc : Canonical m e) :
    IsDouble (m * 2 ^ e) := by
  have hm : |(m : ℤ)| < 2 ^ 53 := by
    rw [Nat.abs_cast]
    exact_mod_cast hc.small
  exact .of m e hm hc.low

theorem isDouble_zero : IsDouble 0 :=
  isDouble_of_eq (m := 0) (e := 0) (by norm_num) (by norm_num) (by norm_num)

theorem HasValue.isDouble
    {x : Float} {r : ℝ}
    (hx : HasValue x r) :
    IsDouble r := by
  cases hx with
  | negativeZero => exact isDouble_zero
  | denoted hr =>
      cases hr with
      | zero => exact isDouble_zero
      | finite m e hm hc hhigh => exact hc.isDouble

theorem abs_nearestEven_sub_le_abs
    {y : ℝ}
    (hy : 0 ≤ y)
    (n : ℤ) :
    |nearestEven y - y| ≤ |n - y| := by
  have herror := abs_nearestEven_sub_le hy
  by_cases hn : n = nearestEven y
  · rw [hn, Int.cast_natCast]
  · have hapart : (1 : ℝ) ≤ |(n : ℝ) - nearestEven y| := by
      have hdistance : 1 ≤ |n - (nearestEven y : ℤ)| :=
        Int.one_le_abs (sub_ne_zero.2 hn)
      exact_mod_cast hdistance
    have htriangle := abs_sub_le (n : ℝ) y (nearestEven y)
    rw [abs_sub_comm y] at htriangle
    linarith

/-- The multiples of the last place of `x`. -/
theorem abs_rounded_sub_le_abs_of_multiple
    {x : ℝ}
    (hx : 0 ≤ x)
    (n : ℤ) :
    |rounded x - x| ≤ |n * 2 ^ lastPlace x - x| := by
  have hplace : (0 : ℝ) < 2 ^ lastPlace x := by positivity
  have hscaled : ∀ y : ℝ, |y * 2 ^ lastPlace x - x| =
      |y - x / 2 ^ lastPlace x| * 2 ^ lastPlace x := by
    intro y
    rw [← abs_of_pos hplace, ← abs_mul, abs_of_pos hplace, sub_mul,
      div_mul_cancel₀ x hplace.ne']
  rw [rounded, hscaled, hscaled]
  exact mul_le_mul_of_nonneg_right
    (abs_nearestEven_sub_le_abs (by positivity) n) hplace.le

theorem abs_rounded_sub_le_abs
    {x s : ℝ}
    (hx : 0 < x)
    (hs : IsDouble s) :
    |rounded x - x| ≤ |s - x| := by
  obtain ⟨m, e, hm, he⟩ := hs
  rcases le_or_gt (lastPlace x) e with hcoarse | hfine
  · obtain ⟨k, hk⟩ := Int.le.dest hcoarse
    have hmultiple : (m * 2 ^ e : ℝ) = (m * 2 ^ k : ℤ) * 2 ^ lastPlace x := by
      rw [← hk, zpow_add₀ two_ne_zero, zpow_natCast]
      push_cast
      ring
    rw [hmultiple]
    exact abs_rounded_sub_le_abs_of_multiple hx.le _
  · -- A power of two lies between the smaller number and `x`, and it is such a
    -- multiple.
    have hnormal : lastPlace x + 52 = Int.log 2 x := by
      unfold lastPlace at *
      omega
    have hpower : ((2 ^ 52 : ℤ) : ℝ) * 2 ^ lastPlace x ≤ x := by
      calc ((2 ^ 52 : ℤ) : ℝ) * 2 ^ lastPlace x = 2 ^ Int.log 2 x := by
            rw [← hnormal, zpow_add₀ two_ne_zero, mul_comm]
            norm_num
        _ ≤ x := zpow_log_le hx
    have hbelow : (m * 2 ^ e : ℝ) ≤ (2 ^ 52 : ℤ) * 2 ^ lastPlace x := by
      have hm' : (m : ℝ) ≤ 2 ^ 53 := by
        exact_mod_cast ((le_abs_self m).trans_lt hm).le
      calc (m * 2 ^ e : ℝ) ≤ 2 ^ 53 * 2 ^ e := by gcongr
        _ = (2 ^ 52 : ℤ) * 2 ^ (e + 1) := by
            rw [zpow_add_one₀ two_ne_zero]
            push_cast
            ring
        _ ≤ (2 ^ 52 : ℤ) * 2 ^ lastPlace x := by
            gcongr
            · exact one_le_two
            · omega
    refine (abs_rounded_sub_le_abs_of_multiple hx.le (2 ^ 52)).trans ?_
    rw [abs_sub_comm, abs_sub_comm _ x, abs_of_nonneg (sub_nonneg.2 hpower),
      abs_of_nonneg (sub_nonneg.2 (hbelow.trans hpower))]
    exact sub_le_sub_left hbelow x

theorem IsDouble.rounded_eq
    {s : ℝ}
    (hs : IsDouble s)
    (hnonneg : 0 ≤ s) :
    rounded s = s := by
  rcases hnonneg.eq_or_lt with rfl | hpos
  · exact rounded_zero
  · have hnear := abs_rounded_sub_le_abs hpos hs
    rw [sub_self, abs_zero] at hnear
    exact sub_eq_zero.1 (abs_nonpos_iff.1 hnear)

theorem isDouble_rounded
    {x : ℝ}
    (hx : 0 ≤ x) :
    IsDouble (rounded x) := by
  have hlow := low_le_lastPlace x
  rcases (mantissa_le hx).eq_or_lt with hfull | hsmall
  · refine isDouble_of_eq (m := 1) (e := lastPlace x + 53)
      (by norm_num) (by omega) ?_
    rw [rounded, hfull, zpow_add₀ two_ne_zero]
    push_cast
    ring
  · refine isDouble_of_eq (m := mantissa x) ?_ hlow ?_
    · rw [Nat.abs_cast]
      exact_mod_cast hsmall
    · rw [rounded, Int.cast_natCast]

end Closest

section Fractions

/-- Doubles are whole numbers of the smallest one and of all powers of two below
it. -/
theorem IsDouble.exists_int
    {s : ℝ} {n : ℕ}
    (hs : IsDouble s)
    (hn : 1074 ≤ n) :
    ∃ z : ℤ, s * 2 ^ n = z := by
  obtain ⟨m, e, -, he⟩ := hs
  obtain ⟨k, hk⟩ := Int.le.dest (by omega : -(n : ℤ) ≤ e)
  have he' : e = k - n := by omega
  refine ⟨m * 2 ^ k, ?_⟩
  rw [he', zpow_sub₀ two_ne_zero, zpow_natCast, zpow_natCast]
  push_cast
  field_simp

variable {k p : ℕ}

/-- A fraction in the middle between two doubles has as many binary as decimal
places, which makes it a double itself. -/
theorem isDouble_of_midpoint
    (hk : k < 2 ^ 53)
    (hp : p ≤ 1074)
    {s t : ℝ}
    (hs : IsDouble s)
    (ht : IsDouble t)
    (hmiddle : s + t = 2 * (k / 10 ^ p)) :
    IsDouble (k / 10 ^ p) := by
  obtain ⟨n, hn⟩ : ∃ n, n = 1074 := ⟨_, rfl⟩
  obtain ⟨y, hy⟩ := hs.exists_int hn.ge
  obtain ⟨z, hz⟩ := ht.exists_int hn.ge
  have hten : (10 : ℝ) ^ p = 2 ^ p * 5 ^ p := by
    rw [← mul_pow]
    norm_num
  have hwhole : (k : ℤ) * 2 ^ (n + 1) = 5 ^ p * ((y + z) * 2 ^ p) := by
    have hsum : (k : ℝ) * 2 ^ (n + 1) = 5 ^ p * ((y + z) * 2 ^ p) := by
      rw [← hy, ← hz, ← add_mul, hmiddle, hten]
      field_simp
      ring
    exact_mod_cast hsum
  have hcoprime : IsCoprime ((5 : ℤ) ^ p) (2 ^ (n + 1)) :=
    IsCoprime.pow ⟨1, -2, by norm_num⟩
  obtain ⟨q, hq⟩ := hcoprime.dvd_of_dvd_mul_right (Dvd.intro _ hwhole.symm)
  have hq' : (k : ℝ) = 5 ^ p * q := by exact_mod_cast hq
  refine isDouble_of_eq (m := q) (e := -p) ?_ (by omega) ?_
  · have hfive : (1 : ℤ) ≤ 5 ^ p := one_le_pow₀ (by norm_num)
    calc |q| ≤ 5 ^ p * |q| := le_mul_of_one_le_left (abs_nonneg q) hfive
      _ = |(k : ℤ)| := by
          rw [hq, abs_mul, abs_of_pos (by positivity : (0 : ℤ) < 5 ^ p)]
      _ < 2 ^ 53 := by
          rw [Nat.abs_cast]
          exact_mod_cast hk
  · rw [hq', hten, zpow_neg, zpow_natCast]
    field_simp

/-- No other double is as near to a fraction with few decimal places. -/
theorem IsDouble.eq_rounded_of_abs_sub_le
    (hk : k < 2 ^ 53)
    (hp : p ≤ 1074)
    {s : ℝ}
    (hs : IsDouble s)
    (hnear : |s - k / 10 ^ p| ≤ |rounded (k / 10 ^ p) - k / 10 ^ p|) :
    s = rounded (k / 10 ^ p) := by
  rcases Nat.eq_zero_or_pos k with rfl | hpos
  · rw [Nat.cast_zero, zero_div, rounded_zero] at *
    rw [sub_zero, sub_zero, abs_zero] at hnear
    exact abs_nonpos_iff.1 hnear
  · have hx : (0 : ℝ) < k / 10 ^ p := by positivity
    have hequal := hnear.antisymm (abs_rounded_sub_le_abs hx hs)
    rcases abs_eq_abs.1 hequal with hsame | hopposite
    · linarith
    · -- The two lie on opposite sides, so the fraction is a double and rounded
      -- to itself.
      have hfraction :=
        isDouble_of_midpoint hk hp hs (isDouble_rounded hx.le) (by linarith)
      rw [hfraction.rounded_eq hx.le] at *
      linarith

end Fractions

end Resemblance.Double
