import Resemblance.Proofs.Double.Denotation

/-!
# Rounding keeps the order

Of two numbers the larger one is not rounded to a smaller double.  If both have
the same last place, their multiples of it are in order; if not, the doubles of
the two are kept apart by a power of two between them.  A bound that is a double
itself, such as a whole number up to two to the fifty-third, is therefore not
passed by rounding.
-/

namespace Resemblance.Double

section NearestEven

theorem nearestEven_natCast (n : ℕ) : nearestEven n = n :=
  nearestEven_eq (Nat.cast_nonneg n) (by norm_num)

/-- Above a common floor the two distances from it decide. -/
theorem nearestEven_mono_of_floor_eq
    {y z : ℝ}
    (hyz : y ≤ z)
    (hfloor : ⌊y⌋₊ = ⌊z⌋₊) :
    nearestEven y ≤ nearestEven z := by
  have hparity : ⌊z⌋₊ % 2 ≤ 1 := Nat.lt_succ_iff.1 (Nat.mod_lt _ two_pos)
  unfold nearestEven
  rw [hfloor]
  by_cases hbelow : z - ⌊z⌋₊ < 1 / 2
  · rw [if_pos hbelow, if_pos (by linarith)]
  · by_cases htie : z - ⌊z⌋₊ = 1 / 2
    · rw [if_neg hbelow, if_pos htie]
      by_cases hbelow' : y - ⌊z⌋₊ < 1 / 2
      · rw [if_pos hbelow']
        omega
      · rw [if_neg hbelow', if_pos (by linarith)]
    · rw [if_neg hbelow, if_neg htie]
      split_ifs <;> omega

theorem nearestEven_mono
    {y z : ℝ}
    (hy : 0 ≤ y)
    (hyz : y ≤ z) :
    nearestEven y ≤ nearestEven z := by
  rcases (Nat.floor_le_floor hyz).eq_or_lt with hsame | hless
  · exact nearestEven_mono_of_floor_eq hyz hsame
  · have hbelow : y ≤ (⌊y⌋₊ + 1 : ℕ) := by
      push_cast
      exact (Nat.lt_floor_add_one y).le
    calc nearestEven y ≤ ⌊y⌋₊ + 1 := nearestEven_le hy hbelow
      _ ≤ ⌊z⌋₊ := hless
      _ ≤ nearestEven z := le_nearestEven (Nat.floor_le (hy.trans hyz))

end NearestEven

section Order

variable {x y : ℝ}

theorem rounded_nonneg (x : ℝ) : 0 ≤ rounded x := by
  unfold rounded
  positivity

theorem lastPlace_mono
    (hx : 0 < x)
    (hxy : x ≤ y) :
    lastPlace x ≤ lastPlace y :=
  max_le_max_right _ (sub_le_sub_right (Int.log_mono_right hx hxy) 52)

/-- A power of two lies between numbers with different last places. -/
theorem rounded_le_of_lastPlace_lt
    (hx : 0 < x)
    (hxy : x ≤ y)
    (hplace : lastPlace x < lastPlace y) :
    rounded x ≤ rounded y := by
  have hnormal : lastPlace y ≠ -1074 :=
    ((low_le_lastPlace x).trans_lt hplace).ne'
  have hfull : 2 ^ 52 ≤ mantissa y :=
    (le_mantissa (hx.trans_le hxy)).resolve_left hnormal
  calc rounded x ≤ (2 ^ 53 : ℕ) * 2 ^ lastPlace x := by
        unfold rounded
        gcongr
        exact mantissa_le hx.le
    _ = (2 ^ 52 : ℕ) * 2 ^ (lastPlace x + 1) := by
        rw [zpow_add_one₀ two_ne_zero]
        push_cast
        ring
    _ ≤ (2 ^ 52 : ℕ) * 2 ^ lastPlace y := by
        gcongr
        · exact one_le_two
        · omega
    _ ≤ rounded y := by
        unfold rounded
        gcongr

theorem rounded_mono
    (hx : 0 ≤ x)
    (hxy : x ≤ y) :
    rounded x ≤ rounded y := by
  rcases hx.eq_or_lt with rfl | hpos
  · rw [rounded_zero]
    exact rounded_nonneg y
  · -- Mantissas can be compared only in multiples of one and the same last
    -- place.
    rcases (lastPlace_mono hpos hxy).eq_or_lt with hsame | hless
    · unfold rounded mantissa
      rw [hsame]
      gcongr
      apply nearestEven_mono (by positivity)
      gcongr
    · exact rounded_le_of_lastPlace_lt hpos hxy hless

end Order

section Naturals

theorem rounded_eq_self
    {x : ℝ} {m : ℕ} {e : ℤ}
    (hvalue : x = m * 2 ^ e)
    (hplace : lastPlace x ≤ e) :
    rounded x = x := by
  obtain ⟨k, hk⟩ := Int.le.dest hplace
  have hmultiple : x = (m * 2 ^ k : ℕ) * 2 ^ lastPlace x := by
    calc x = m * 2 ^ (lastPlace x + k) := by rw [hk, ← hvalue]
      _ = (m * 2 ^ k : ℕ) * 2 ^ lastPlace x := by
          rw [zpow_add₀ two_ne_zero, zpow_natCast]
          push_cast
          ring
  have hquotient : x / 2 ^ lastPlace x = (m * 2 ^ k : ℕ) := by
    rw [div_eq_iff (by positivity)]
    exact hmultiple
  rw [rounded, mantissa, hquotient, nearestEven_natCast]
  exact hmultiple.symm

theorem rounded_two_zpow
    {k : ℤ}
    (hk : -1074 ≤ k) :
    rounded (2 ^ k) = 2 ^ k := by
  have hlog : Int.log 2 ((2 : ℝ) ^ k) = k := by
    apply log_eq le_rfl
    rw [zpow_add_one₀ two_ne_zero]
    exact lt_mul_of_one_lt_right (by positivity) one_lt_two
  have hplace : lastPlace (2 ^ k) ≤ k := by
    unfold lastPlace
    omega
  exact rounded_eq_self (m := 1) (by rw [Nat.cast_one, one_mul]) hplace

theorem rounded_le_two_zpow
    {x : ℝ} {k : ℤ}
    (hx : 0 ≤ x)
    (hxk : x ≤ 2 ^ k)
    (hk : -1074 ≤ k) :
    rounded x ≤ 2 ^ k :=
  (rounded_mono hx hxk).trans (rounded_two_zpow hk).le

theorem lastPlace_natCast_le
    {n : ℕ}
    (hn : n < 2 ^ 53) :
    lastPlace n ≤ 0 := by
  have hlog : Int.log 2 (n : ℝ) ≤ 52 := by
    rw [Int.log_natCast]
    have hdigits : Nat.log 2 n < 53 := Nat.log_lt_of_lt_pow' (by norm_num) hn
    omega
  unfold lastPlace
  omega

/-- Whole numbers are doubles up to two to the fifty-third. -/
theorem rounded_natCast
    {n : ℕ}
    (hn : n ≤ 2 ^ 53) :
    rounded n = n := by
  rcases hn.eq_or_lt with rfl | hsmall
  · have hpower := rounded_two_zpow (by norm_num : -1074 ≤ (53 : ℤ))
    exact_mod_cast hpower
  · exact rounded_eq_self (by rw [zpow_zero, mul_one])
      (lastPlace_natCast_le hsmall)

theorem rounded_le_natCast
    {x : ℝ} {n : ℕ}
    (hx : 0 ≤ x)
    (hxn : x ≤ n)
    (hn : n ≤ 2 ^ 53) :
    rounded x ≤ n :=
  (rounded_mono hx hxn).trans (rounded_natCast hn).le

theorem rounded_le_one
    {x : ℝ}
    (hx : 0 ≤ x)
    (hone : x ≤ 1) :
    rounded x ≤ 1 :=
  (rounded_mono hx hone).trans rounded_one.le

/-- The last double below one has a mantissa of ones only. -/
theorem rounded_below_one : rounded (1 - 1 / 2 ^ 53) = 1 - 1 / 2 ^ 53 := by
  have hlog : Int.log 2 ((1 : ℝ) - 1 / 2 ^ 53) = -1 := by
    apply log_eq <;> norm_num
  have hplace : lastPlace (1 - 1 / 2 ^ 53) ≤ -53 := by
    rw [lastPlace, hlog]
    norm_num
  have hvalue : (1 : ℝ) - 1 / 2 ^ 53 = (2 ^ 53 - 1 : ℕ) * 2 ^ (-53 : ℤ) := by
    norm_num
  exact rounded_eq_self hvalue hplace

theorem rounded_le_below_one
    {x : ℝ}
    (hx : 0 ≤ x)
    (hbelow : x ≤ 1 - 1 / 2 ^ 53) :
    rounded x ≤ 1 - 1 / 2 ^ 53 :=
  (rounded_mono hx hbelow).trans rounded_below_one.le

theorem rounded_lt_one
    {x : ℝ}
    (hx : 0 ≤ x)
    (hbelow : x ≤ 1 - 1 / 2 ^ 53) :
    rounded x < 1 :=
  (rounded_le_below_one hx hbelow).trans_lt (by norm_num)

theorem one_div_two_pow_le_rounded
    {x : ℝ}
    (hx : 1 / 2 ^ 53 ≤ x) :
    1 / 2 ^ 53 ≤ rounded x := by
  have hpower : rounded (1 / 2 ^ 53) = 1 / 2 ^ 53 := by
    have hexact := rounded_two_zpow (by norm_num : -1074 ≤ (-53 : ℤ))
    norm_num at hexact ⊢
    exact hexact
  exact hpower.ge.trans (rounded_mono (by positivity) hx)

theorem one_le_rounded
    {x : ℝ}
    (hone : 1 ≤ x) :
    1 ≤ rounded x :=
  rounded_one.ge.trans (rounded_mono zero_le_one hone)

theorem rounded_le_mul
    {x : ℝ}
    (hx : (2 : ℝ) ^ (-1022 : ℤ) ≤ x) :
    rounded x ≤ x * (1 + 1 / 2 ^ 53) := by
  have herror := (abs_le.1 (abs_rounded_sub_le_mul hx)).2
  linarith

theorem mul_le_rounded
    {x : ℝ}
    (hone : 1 ≤ x) :
    x * (1 - 1 / 2 ^ 53) ≤ rounded x := by
  have hnormal : (2 : ℝ) ^ (-1022 : ℤ) ≤ 1 :=
    zpow_le_one_of_nonpos₀ one_le_two (by norm_num)
  have herror := (abs_le.1 (abs_rounded_sub_le_mul (hnormal.trans hone))).1
  linarith

theorem one_le_rounded_natCast
    {n : ℕ}
    (hpos : 0 < n) :
    1 ≤ rounded n :=
  one_le_rounded (by exact_mod_cast hpos)

theorem rounded_natCast_le
    {n k : ℕ}
    (hn : n < 2 ^ k) :
    rounded n ≤ 2 ^ (k : ℤ) :=
  rounded_le_two_zpow (Nat.cast_nonneg n) (by exact_mod_cast hn.le) (by omega)

/-- A whole number with fewer digits than the largest double. -/
theorem natCast_lt_two_zpow
    {n k : ℕ}
    (hn : n < 2 ^ k)
    (hk : k ≤ 1023) :
    (n : ℝ) < 2 ^ (1023 : ℤ) := by
  calc (n : ℝ) < 2 ^ (k : ℤ) := by exact_mod_cast hn
    _ ≤ 2 ^ (1023 : ℤ) := by
        gcongr
        · exact one_le_two
        · exact_mod_cast hk

/-- The first whole number that is no double goes down to its even neighbour. -/
theorem rounded_two_pow_add_one : rounded (2 ^ 53 + 1) = 2 ^ 53 := by
  have hlog : Int.log 2 ((2 : ℝ) ^ 53 + 1) = 53 := by
    apply log_eq <;> norm_num
  have hplace : lastPlace (2 ^ 53 + 1) = 1 := by
    rw [lastPlace, hlog]
    norm_num
  have hfloor : ⌊((2 : ℝ) ^ 53 + 1) / 2 ^ (1 : ℤ)⌋₊ = 2 ^ 52 := by
    rw [Nat.floor_eq_iff (by positivity)]
    norm_num
  rw [rounded, mantissa, hplace, nearestEven, hfloor]
  norm_num

/-- A sum of doubles up to one is bounded by their number, and it does not grow
any more where one is too little to reach the next double. -/
theorem rounded_add_le
    {r s : ℝ} {k : ℕ}
    (hr : 0 ≤ r)
    (hrk : r ≤ (min k (2 ^ 53) : ℕ))
    (hs : 0 ≤ s)
    (hone : s ≤ 1) :
    rounded (r + s) ≤ (min (k + 1) (2 ^ 53) : ℕ) := by
  have hsum : 0 ≤ r + s := add_nonneg hr hs
  rcases Nat.lt_or_ge k (2 ^ 53) with hsmall | hlarge
  · rw [min_eq_left hsmall.le] at hrk
    rw [min_eq_left hsmall]
    apply rounded_le_natCast hsum _ hsmall
    push_cast
    linarith
  · rw [min_eq_right hlarge, Nat.cast_pow, Nat.cast_ofNat] at hrk
    rw [min_eq_right (by omega), Nat.cast_pow, Nat.cast_ofNat]
    calc rounded (r + s)
        ≤ rounded (2 ^ 53 + 1) := rounded_mono hsum (by linarith)
      _ = 2 ^ 53 := rounded_two_pow_add_one

end Naturals

end Resemblance.Double
