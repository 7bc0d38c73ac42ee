import Mathlib.Analysis.Real.Sqrt
import Mathlib.Algebra.Order.Field.Power
import Mathlib.Data.Int.Log
import Mathlib.Tactic.FieldSimp
import Mathlib.Tactic.Linarith
import Mathlib.Tactic.Positivity

/-!
# Rounding to the nearest double

The doubles around a positive number are the multiples of its last place, a
power of two that leaves fifty-three binary digits, or fewer near zero.
Rounding takes the nearest multiple and settles a tie for the even one.  The
square root of a square is rounded back to the number that was squared, although
the square itself was rounded: the error of the square is less than the gap that
the root closes.
-/

namespace Resemblance.Double

noncomputable section

section NearestEven

/-- The whole number nearest to `y`, a tie going to the even one. -/
def nearestEven (y : ℝ) : ℕ :=
  if y - ⌊y⌋₊ < 1 / 2 then ⌊y⌋₊
  else if y - ⌊y⌋₊ = 1 / 2 then ⌊y⌋₊ + ⌊y⌋₊ % 2
  else ⌊y⌋₊ + 1

theorem abs_nearestEven_sub_le
    {y : ℝ}
    (hy : 0 ≤ y) :
    |nearestEven y - y| ≤ 1 / 2 := by
  have hfloor : (⌊y⌋₊ : ℝ) ≤ y := Nat.floor_le hy
  have hnext : y < ⌊y⌋₊ + 1 := Nat.lt_floor_add_one y
  unfold nearestEven
  rw [abs_le]
  split_ifs with hbelow htie
  · constructor <;> linarith
  · have hparity : ((⌊y⌋₊ % 2 : ℕ) : ℝ) ≤ 1 := by
      exact_mod_cast Nat.lt_succ_iff.1 (Nat.mod_lt ⌊y⌋₊ two_pos)
    have hparity' : (0 : ℝ) ≤ ((⌊y⌋₊ % 2 : ℕ) : ℝ) := Nat.cast_nonneg _
    rw [Nat.cast_add]
    constructor <;> linarith
  · have habove : 1 / 2 < y - ⌊y⌋₊ :=
      lt_of_le_of_ne (not_lt.1 hbelow) (Ne.symm htie)
    rw [Nat.cast_add, Nat.cast_one]
    constructor <;> linarith

theorem nearestEven_eq
    {y : ℝ} {n : ℕ}
    (hy : 0 ≤ y)
    (hnear : |y - n| < 1 / 2) :
    nearestEven y = n := by
  have herror := abs_nearestEven_sub_le hy
  have hdistance : |((nearestEven y : ℤ) - n : ℤ)| < 1 := by
    have htriangle : |(nearestEven y : ℝ) - n| < 1 := by
      rw [abs_le] at herror
      rw [abs_lt] at *
      constructor <;> linarith
    exact_mod_cast htriangle
  have hequal := Int.abs_lt_one_iff.1 hdistance
  omega

theorem nearestEven_le
    {y : ℝ} {n : ℕ}
    (hy : 0 ≤ y)
    (hyn : y ≤ n) :
    nearestEven y ≤ n := by
  have herror := (abs_le.1 (abs_nearestEven_sub_le hy)).2
  have hlt : (nearestEven y : ℝ) < n + 1 := by linarith
  exact Nat.lt_succ_iff.1 (by exact_mod_cast hlt)

theorem le_nearestEven {y : ℝ} {n : ℕ} (hny : n ≤ y) : n ≤ nearestEven y := by
  have herror :=
    (abs_le.1 (abs_nearestEven_sub_le ((Nat.cast_nonneg n).trans hny))).1
  have hlt : (n : ℝ) < nearestEven y + 1 := by linarith
  exact Nat.lt_succ_iff.1 (by exact_mod_cast hlt)

end NearestEven

section LastPlace

/-- The place of the last binary digit that a double near `x` has. -/
def lastPlace (x : ℝ) : ℤ := max (Int.log 2 x - 52) (-1074)

/-- The multiple of the last place that is nearest to `x`. -/
def mantissa (x : ℝ) : ℕ := nearestEven (x / 2 ^ lastPlace x)

/-- The double nearest to `x`, of those without a largest one. -/
def rounded (x : ℝ) : ℝ := mantissa x * 2 ^ lastPlace x

theorem log_eq
    {x : ℝ} {k : ℤ}
    (hlow : (2 : ℝ) ^ k ≤ x)
    (hhigh : x < 2 ^ (k + 1)) :
    Int.log 2 x = k := by
  have hpos : 0 < x := lt_of_lt_of_le (by positivity) hlow
  have hle : k ≤ Int.log 2 x :=
    (Int.zpow_le_iff_le_log one_lt_two hpos).1 (by simpa using hlow)
  have hlt : Int.log 2 x < k + 1 :=
    (Int.lt_zpow_iff_log_lt one_lt_two hpos).1 (by simpa using hhigh)
  omega

theorem zpow_log_le {x : ℝ} (hx : 0 < x) : (2 : ℝ) ^ Int.log 2 x ≤ x := by
  simpa using Int.zpow_log_le_self one_lt_two hx

theorem lt_zpow_log (x : ℝ) : x < 2 ^ (Int.log 2 x + 1) := by
  simpa using Int.lt_zpow_succ_log_self one_lt_two x

theorem abs_rounded_sub_le
    {x : ℝ}
    (hx : 0 ≤ x) :
    |rounded x - x| ≤ 2 ^ lastPlace x / 2 := by
  have hplace : (0 : ℝ) < 2 ^ lastPlace x := by positivity
  have hscaled : rounded x - x =
      (mantissa x - x / 2 ^ lastPlace x) * 2 ^ lastPlace x := by
    rw [rounded, sub_mul, div_mul_cancel₀ x hplace.ne']
  rw [hscaled, abs_mul, abs_of_pos hplace]
  calc |mantissa x - x / 2 ^ lastPlace x| * 2 ^ lastPlace x
      ≤ 1 / 2 * 2 ^ lastPlace x := by
        gcongr
        exact abs_nearestEven_sub_le (by positivity)
    _ = 2 ^ lastPlace x / 2 := by ring

theorem rounded_eq
    {x : ℝ} {m : ℕ} {e : ℤ}
    (hx : 0 ≤ x)
    (hplace : lastPlace x = e)
    (hnear : |x - m * 2 ^ e| < 2 ^ e / 2) :
    rounded x = m * 2 ^ e := by
  have hpos : (0 : ℝ) < 2 ^ e := by positivity
  have hscaled : |x / 2 ^ e - m| < 1 / 2 := by
    have hquotient : x / 2 ^ e - m = (x - m * 2 ^ e) / 2 ^ e := by field_simp
    rw [hquotient, abs_div, abs_of_pos hpos, div_lt_iff₀ hpos]
    linarith
  rw [rounded, mantissa, hplace, nearestEven_eq (by positivity) hscaled]

/-- Above the smallest normal double the error is at most half a unit in
fifty-three digits. -/
theorem abs_rounded_sub_le_mul
    {x : ℝ}
    (hx : (2 : ℝ) ^ (-1022 : ℤ) ≤ x) :
    |rounded x - x| ≤ x / 2 ^ 53 := by
  have hpos : 0 < x := lt_of_lt_of_le (by positivity) hx
  have hlog : -1022 ≤ Int.log 2 x :=
    (Int.zpow_le_iff_le_log one_lt_two hpos).1 (by simpa using hx)
  have hplace : lastPlace x = Int.log 2 x - 52 := by
    unfold lastPlace
    omega
  calc |rounded x - x| ≤ 2 ^ lastPlace x / 2 := abs_rounded_sub_le hpos.le
    _ = 2 ^ Int.log 2 x / 2 ^ 53 := by
        rw [hplace, zpow_sub₀ two_ne_zero]
        norm_num
        ring
    _ ≤ x / 2 ^ 53 := by
        gcongr
        exact zpow_log_le hpos

end LastPlace

section Canonical

/-- A mantissa and an exponent as a positive double stores them: the mantissa is
full unless the exponent is the lowest. -/
structure Canonical (m : ℕ) (e : ℤ) : Prop where
  pos : 0 < m
  small : m < 2 ^ 53
  low : -1074 ≤ e
  full : e = -1074 ∨ 2 ^ 52 ≤ m

theorem canonical_two_pow
    {e : ℤ}
    (he : -1074 ≤ e) :
    Canonical (2 ^ 52) e where
  pos := by norm_num
  small := by norm_num
  low := he
  full := .inr le_rfl

theorem low_le_lastPlace (x : ℝ) : -1074 ≤ lastPlace x := le_max_right _ _

theorem mantissa_le {x : ℝ} (hx : 0 ≤ x) : mantissa x ≤ 2 ^ 53 := by
  have hpos : (0 : ℝ) < 2 ^ lastPlace x := by positivity
  have hplace : Int.log 2 x + 1 ≤ lastPlace x + 53 := by
    unfold lastPlace
    omega
  apply nearestEven_le (by positivity)
  rw [div_le_iff₀ hpos]
  calc x ≤ 2 ^ (Int.log 2 x + 1) := (lt_zpow_log x).le
    _ ≤ 2 ^ (lastPlace x + 53) := by
        gcongr
        exact one_le_two
    _ = (2 ^ 53 : ℕ) * 2 ^ lastPlace x := by
        rw [zpow_add₀ two_ne_zero, mul_comm]
        norm_num

theorem le_mantissa
    {x : ℝ}
    (hx : 0 < x) :
    lastPlace x = -1074 ∨ 2 ^ 52 ≤ mantissa x := by
  rw [or_iff_not_imp_left]
  intro hplace
  have hlog : lastPlace x + 52 = Int.log 2 x := by
    unfold lastPlace at *
    omega
  have hpos : (0 : ℝ) < 2 ^ lastPlace x := by positivity
  apply le_nearestEven
  rw [le_div_iff₀ hpos]
  calc ((2 ^ 52 : ℕ) : ℝ) * 2 ^ lastPlace x = 2 ^ (lastPlace x + 52) := by
        rw [zpow_add₀ two_ne_zero, mul_comm]
        norm_num
    _ ≤ x := hlog ▸ zpow_log_le hx

theorem canonical_mantissa
    {x : ℝ}
    (hx : 0 < x)
    (hpos : 0 < mantissa x)
    (hsmall : mantissa x < 2 ^ 53) :
    Canonical (mantissa x) (lastPlace x) :=
  ⟨hpos, hsmall, low_le_lastPlace x, le_mantissa hx⟩

theorem log_mul_zpow
    {y : ℝ} {n : ℕ}
    (hlow : 2 ^ n ≤ y)
    (hhigh : y < 2 ^ (n + 1))
    (e : ℤ) :
    Int.log 2 (y * 2 ^ e) = n + e := by
  apply log_eq
  · rw [zpow_add₀ two_ne_zero, zpow_natCast]
    gcongr
  · have hnext : (n : ℤ) + e + 1 = (n + 1 : ℕ) + e := by
      push_cast
      ring
    rw [hnext, zpow_add₀ two_ne_zero, zpow_natCast]
    gcongr

theorem log_eq_log2
    {m : ℕ}
    (hm : 0 < m)
    (e : ℤ) :
    Int.log 2 (m * 2 ^ e : ℝ) = m.log2 + e :=
  log_mul_zpow (by exact_mod_cast Nat.log2_self_le hm.ne')
    (by exact_mod_cast Nat.lt_log2_self) e

theorem Canonical.lastPlace_eq
    {m : ℕ} {e : ℤ}
    (hc : Canonical m e) :
    lastPlace (m * 2 ^ e) = e := by
  have hlog : m.log2 < 53 := (Nat.log2_lt hc.pos.ne').2 hc.small
  have hlow := hc.low
  rw [lastPlace, log_eq_log2 hc.pos]
  rcases hc.full with hlowest | hfull
  · omega
  · have hlog' : 52 ≤ m.log2 := (Nat.le_log2 hc.pos.ne').2 hfull
    omega

theorem Canonical.rounded_eq
    {m : ℕ} {e : ℤ}
    (hc : Canonical m e) :
    rounded (m * 2 ^ e) = m * 2 ^ e := by
  apply Double.rounded_eq (by positivity) hc.lastPlace_eq
  rw [sub_self, abs_zero]
  positivity

end Canonical

section SquareRoots

variable {m : ℕ} {e : ℤ}

theorem two_zpow_le_mul_self
    {x : ℝ}
    (hx : (2 : ℝ) ^ (-511 : ℤ) ≤ x) :
    (2 : ℝ) ^ (-1022 : ℤ) ≤ x * x := by
  have hpos : 0 ≤ x := le_trans (by positivity) hx
  calc (2 : ℝ) ^ (-1022 : ℤ) = 2 ^ (-511 : ℤ) * 2 ^ (-511 : ℤ) := by
        rw [← zpow_add₀ two_ne_zero]
        norm_num
    _ ≤ x * x := by gcongr

/-- The square of a power of two is exact. -/
theorem rounded_sqrt_of_power (he : -563 ≤ e) :
    rounded (√(rounded ((2 ^ 52 : ℕ) * 2 ^ e * ((2 ^ 52 : ℕ) * 2 ^ e)))) =
      (2 ^ 52 : ℕ) * 2 ^ e := by
  have hsquare : ((2 ^ 52 : ℕ) : ℝ) * 2 ^ e * ((2 ^ 52 : ℕ) * 2 ^ e) =
      (2 ^ 52 : ℕ) * 2 ^ (2 * e + 52) := by
    rw [zpow_add₀ two_ne_zero, two_mul, zpow_add₀ two_ne_zero]
    push_cast
    ring
  have hexact := (canonical_two_pow (by omega : -1074 ≤ 2 * e + 52)).rounded_eq
  have hself := (canonical_two_pow (by omega : -1074 ≤ e)).rounded_eq
  rw [hsquare, hexact, ← hsquare, Real.sqrt_mul_self (by positivity), hself]

/-- The error of a rounded square is smaller than the distance of the squares of
`x` and of the midpoints beside it. -/
theorem abs_sqrt_sub_lt
    {x u P : ℝ}
    (hu : 0 < u)
    (hlow : 2 ^ 52 * u ≤ x)
    (hhigh : x ≤ (2 ^ 53 - 1) * u)
    (hP : |P - x * x| ≤ x * x / 2 ^ 53) :
    |√P - x| < u / 2 := by
  have hx : 0 < x := lt_of_lt_of_le (by positivity) hlow
  have herror : x * x / 2 ^ 53 ≤ x * u - u * u / 2 := by
    nlinarith
  rw [abs_le] at hP
  rw [abs_lt]
  have hbelow : x - u / 2 < √P := by
    apply Real.lt_sqrt_of_sq_lt
    nlinarith
  have habove : √P < x + u / 2 := by
    rw [Real.sqrt_lt' (by positivity)]
    nlinarith
  constructor <;> linarith

theorem rounded_sqrt_of_full
    (hc : Canonical m e)
    (he : -563 ≤ e)
    (hfull : 2 ^ 52 < m) :
    rounded (√(rounded (m * 2 ^ e * (m * 2 ^ e)))) = m * 2 ^ e := by
  have hu : (0 : ℝ) < 2 ^ e := by positivity
  have hlow : ((2 : ℝ) ^ 52 + 1) * 2 ^ e ≤ m * 2 ^ e := by
    gcongr
    exact_mod_cast hfull
  have hhigh : m * 2 ^ e ≤ ((2 : ℝ) ^ 53 - 1) * 2 ^ e := by
    gcongr
    rw [le_sub_iff_add_le]
    exact_mod_cast hc.small
  have hnormal : (2 : ℝ) ^ (-511 : ℤ) ≤ m * 2 ^ e := by
    calc (2 : ℝ) ^ (-511 : ℤ) ≤ 2 ^ (52 + e) := by
          gcongr
          · exact one_le_two
          · omega
      _ = 2 ^ 52 * 2 ^ e := by
          rw [zpow_add₀ two_ne_zero]
          rfl
      _ ≤ m * 2 ^ e := by linarith
  have herror := abs_rounded_sub_le_mul (two_zpow_le_mul_self hnormal)
  have hroot := abs_sqrt_sub_lt hu (by linarith) hhigh herror
  have hnear := abs_lt.1 hroot
  have hlog : Int.log 2 √(rounded (m * 2 ^ e * (m * 2 ^ e))) = e + 52 := by
    have hbinade : (2 : ℝ) ^ (e + 52) = 2 ^ 52 * 2 ^ e := by
      rw [zpow_add₀ two_ne_zero, mul_comm]
      rfl
    have hbinade' : (2 : ℝ) ^ (e + 52 + 1) = 2 ^ 53 * 2 ^ e := by
      rw [zpow_add_one₀ two_ne_zero, hbinade]
      ring
    apply log_eq
    · rw [hbinade]
      linarith
    · rw [hbinade']
      linarith
  apply rounded_eq (Real.sqrt_nonneg _) _ hroot
  rw [lastPlace, hlog]
  omega

/-- The root of a rounded square is the double that was squared. -/
theorem Canonical.rounded_sqrt
    (hc : Canonical m e)
    (he : -563 ≤ e) :
    rounded (√(rounded (m * 2 ^ e * (m * 2 ^ e)))) = m * 2 ^ e := by
  have hfull : 2 ^ 52 ≤ m := hc.full.resolve_left (by omega)
  rcases hfull.eq_or_lt with rfl | hlt
  · exact rounded_sqrt_of_power he
  · exact rounded_sqrt_of_full hc he hlt

end SquareRoots

end

end Resemblance.Double
