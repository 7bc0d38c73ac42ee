import Resemblance.Proofs.Measure.EditMetric
import Resemblance.Proofs.Measure.UnitInterval

/-!
# What the edit ratio tells apart

The ratio is rounded twice, when the distance is divided by the longer length
and when the quotient is taken from one.  Up to `2 ^ 53` characters a quotient
other than zero and one stays at least `1 / 2 ^ 53` away from both, and neither
rounding goes further.  The ratio is therefore one for equal texts only and zero
only where the distance is the longer length.
-/

namespace Resemblance

open Double Decimal

section Rest

variable {k l n : ℕ}

theorem rounded_div_le_one (hkn : k ≤ n) : rounded (k / n) ≤ 1 :=
  rounded_le_one (by positivity)
    (div_le_one_of_le₀ (by exact_mod_cast hkn) (Nat.cast_nonneg n))

theorem one_div_two_pow_le_div
    (hk : 0 < k)
    (hkn : k ≤ n)
    (hexact : n ≤ 2 ^ 53) :
    (1 / 2 ^ 53 : ℝ) ≤ k / n := by
  have hk' : (1 : ℝ) ≤ k := by exact_mod_cast hk
  have hn : (0 : ℝ) < n := by exact_mod_cast hk.trans_le hkn
  have hlarge : (n : ℝ) ≤ 2 ^ 53 := by exact_mod_cast hexact
  exact div_le_div₀ (Nat.cast_nonneg k) hk' hn hlarge

theorem denotes_one_sub_div
    (hpos : 0 < n)
    (hkn : k ≤ n)
    (hexact : n ≤ 2 ^ 53) :
    Denotes (1.0 - nearestNat k / nearestNat n)
      (rounded (1 - rounded (k / n))) :=
  denotes_one.sub (denotes_nearestNat_div hpos hkn hexact)
    (rounded_div_le_one hkn)
    (lt_two_zpow_of_le_one le_rfl)

theorem rounded_one_sub_anti
    (hkl : k ≤ l)
    (hln : l ≤ n) :
    rounded (1 - rounded (l / n)) ≤ rounded (1 - rounded (k / n)) := by
  have hquotients : rounded (k / n) ≤ rounded (l / n) :=
    rounded_mono (by positivity) (by gcongr)
  apply rounded_mono (sub_nonneg.2 (rounded_div_le_one hln))
  gcongr

theorem rounded_one_sub_eq_one_iff
    (hkn : k ≤ n)
    (hexact : n ≤ 2 ^ 53) :
    rounded (1 - rounded (k / n)) = 1 ↔ k = 0 := by
  constructor
  · contrapose!
    intro hk
    have hquotient : 1 / 2 ^ 53 ≤ rounded (k / n : ℝ) :=
      one_div_two_pow_le_rounded
        (one_div_two_pow_le_div (Nat.pos_of_ne_zero hk) hkn hexact)
    exact (rounded_lt_one
      (sub_nonneg.2 (rounded_div_le_one hkn)) (by gcongr)).ne
  · rintro rfl
    rw [Nat.cast_zero, zero_div, rounded_zero, sub_zero, rounded_one]

theorem rounded_one_sub_eq_zero_iff
    (hpos : 0 < n)
    (hkn : k ≤ n)
    (hexact : n ≤ 2 ^ 53) :
    rounded (1 - rounded (k / n)) = 0 ↔ k = n := by
  constructor
  · contrapose!
    intro hne
    have hquotient : rounded (k / n : ℝ) ≤ 1 - 1 / 2 ^ 53 :=
      rounded_le_below_one (by positivity)
        (div_le_below_one (Nat.lt_of_le_of_ne hkn hne) hexact)
    have hrest : 1 / 2 ^ 53 ≤ rounded (1 - rounded (k / n : ℝ)) :=
      one_div_two_pow_le_rounded (by linarith)
    have hpositive : (0 : ℝ) < 1 / 2 ^ 53 := by positivity
    exact (hpositive.trans_le hrest).ne'
  · rintro rfl
    have hwhole : (k / k : ℝ) = 1 := div_self (by exact_mod_cast hpos.ne')
    rw [hwhole, rounded_one, sub_self, rounded_zero]

end Rest

section Ratio

variable {a b : List Char}

theorem max_length_pos (hne : ¬ (a = [] ∧ b = [])) :
    0 < max a.length b.length := by
  by_contra hzero
  apply hne
  simpa using hzero

/-- The answers for an empty text are those of the formula. -/
theorem editRatio_eq
    (hne : ¬ (a = [] ∧ b = []))
    (ha : a.length ≤ 2 ^ 53)
    (hb : b.length ≤ 2 ^ 53) :
    editRatio a b =
      1.0 - nearestNat (editDistance a b) /
        nearestNat (max a.length b.length) := by
  have hnone : (0.0 : Float) = 1.0 - 1.0 := by decide +kernel
  have hpos := max_length_pos hne
  -- A text that is compared with the empty one is inserted or deleted as a
  -- whole.
  have hwhole (hdisjoint : a.Disjoint b) :
      nearestNat (editDistance a b) / nearestNat (max a.length b.length) =
        1.0 := by
    rw [editDistance_of_disjoint hdisjoint]
    exact nearestNat_div_self hpos (by omega)
  cases a with
  | nil =>
      rw [hwhole (List.disjoint_nil_left b), ← hnone]
      cases b with
      | nil => exact absurd ⟨rfl, rfl⟩ hne
      | cons d b => rfl
  | cons c a =>
      cases b with
      | nil =>
          rw [hwhole (List.disjoint_nil_right (c :: a)), ← hnone]
          rfl
      | cons d b => rfl

theorem denotes_editRatio
    (hne : ¬ (a = [] ∧ b = []))
    (ha : a.length ≤ 2 ^ 53)
    (hb : b.length ≤ 2 ^ 53) :
    Denotes (editRatio a b)
      (rounded
        (1 - rounded (editDistance a b / (max a.length b.length : ℕ)))) := by
  rw [editRatio_eq hne ha hb]
  exact denotes_one_sub_div (max_length_pos hne)
    (editDistance_le a b) (max_le ha hb)

theorem editRatio_eq_one_iff
    (ha : a.length ≤ 2 ^ 53)
    (hb : b.length ≤ 2 ^ 53) :
    editRatio a b = 1.0 ↔ a = b := by
  by_cases hempty : a = [] ∧ b = []
  · rw [hempty.1, hempty.2]
    exact ⟨fun _ => rfl, fun _ => rfl⟩
  · rw [(denotes_editRatio hempty ha hb).eq_iff denotes_one,
      rounded_one_sub_eq_one_iff (editDistance_le a b) (max_le ha hb),
      editDistance_eq_zero_iff]

theorem editRatio_eq_zero_iff
    (ha : a.length ≤ 2 ^ 53)
    (hb : b.length ≤ 2 ^ 53) :
    editRatio a b = 0.0 ↔
      ¬ (a = [] ∧ b = []) ∧ editDistance a b = max a.length b.length := by
  by_cases hempty : a = [] ∧ b = []
  · have hone : editRatio [] [] ≠ 0.0 := by decide +kernel
    rw [hempty.1, hempty.2]
    simpa using hone
  · have hzero : Denotes 0.0 0 := .zero
    rw [(denotes_editRatio hempty ha hb).eq_iff hzero,
      rounded_one_sub_eq_zero_iff (max_length_pos hempty)
        (editDistance_le a b) (max_le ha hb)]
    exact ⟨fun hequal => ⟨hempty, hequal⟩, fun hequal => hequal.2⟩

theorem editRatio_anti
    {a' b' : List Char}
    (ha : a.length ≤ 2 ^ 53)
    (hb : b.length ≤ 2 ^ 53)
    (hlength : max a'.length b'.length = max a.length b.length)
    (hless : editDistance a b ≤ editDistance a' b') :
    editRatio a' b' ≤ editRatio a b := by
  by_cases hempty : a = [] ∧ b = []
  · have hempty' : a' = [] ∧ b' = [] := by
      simpa [hempty.1, hempty.2] using hlength
    rw [hempty.1, hempty.2, hempty'.1, hempty'.2]
    exact (denotes_one.le_iff denotes_one).2 le_rfl
  · have hpos := max_length_pos hempty
    have hempty' : ¬ (a' = [] ∧ b' = []) := by
      rintro ⟨rfl, rfl⟩
      exact hpos.ne hlength
    have hdenotes := denotes_editRatio hempty' (by omega) (by omega)
    rw [hlength] at hdenotes
    rw [hdenotes.le_iff (denotes_editRatio hempty ha hb)]
    exact rounded_one_sub_anti hless (hlength ▸ editDistance_le a' b')

/-- The ratio is a number from zero to one, one for equal texts only and zero
only where the distance is the longer length.  Of two pairs with one longer
length the closer one has the larger ratio or the same. -/
theorem editRatio_discriminates
    (ha : a.length ≤ 2 ^ 53)
    (hb : b.length ≤ 2 ^ 53) :
    (0.0 ≤ editRatio a b ∧ editRatio a b ≤ 1.0) ∧
    ((editRatio a b = 1.0 ↔ a = b) ∧ ((editRatio a b == 1.0) = true ↔ a = b)) ∧
    ((editRatio a b = 0.0 ↔
        ¬ (a = [] ∧ b = []) ∧ editDistance a b = max a.length b.length) ∧
      ((editRatio a b == 0.0) = true ↔
        ¬ (a = [] ∧ b = []) ∧ editDistance a b = max a.length b.length)) ∧
    (¬ (a = [] ∧ b = []) →
      editRatio a b =
        1.0 - nearestNat (editDistance a b) /
          nearestNat (max a.length b.length)) ∧
    ∀ a' b' : List Char, max a'.length b'.length = max a.length b.length →
      editDistance a b ≤ editDistance a' b' →
        editRatio a' b' ≤ editRatio a b := by
  have hunit : InUnit (editRatio a b) :=
    inUnit_editRatio (ha.trans_lt (by norm_num)) (hb.trans_lt (by norm_num))
  have hone := editRatio_eq_one_iff ha hb
  have hzero := editRatio_eq_zero_iff ha hb
  refine ⟨⟨hunit.zero_le, hunit.le_one⟩, ⟨hone, ?_⟩, ⟨hzero, ?_⟩,
    fun hne => editRatio_eq hne ha hb, fun a' b' => editRatio_anti ha hb⟩
  · rw [hunit.beq_iff_eq inUnit_one, hone]
  · rw [hunit.beq_iff_eq inUnit_zero, hzero]

theorem editRatio_discriminates_kitten :
    "kitten".toList.length ≤ 2 ^ 53 ∧ "sitting".toList.length ≤ 2 ^ 53 ∧
    max "kitchen".toList.length "garbage".toList.length =
      max "kitten".toList.length "sitting".toList.length ∧
    editDistance "kitten".toList "sitting".toList ≤
      editDistance "kitchen".toList "garbage".toList ∧
    editRatio "kitten".toList "sitting".toList =
      1.0 - nearestNat 3 / nearestNat 7 ∧
    editRatio "kitten".toList "sitting".toList ≠ 1.0 ∧
    editRatio "kitten".toList "sitting".toList ≠ 0.0 ∧
    editRatio "kitchen".toList "garbage".toList ≤
      editRatio "kitten".toList "sitting".toList := by
  have ha : "kitten".toList.length ≤ 2 ^ 53 := by decide
  have hb : "sitting".toList.length ≤ 2 ^ 53 := by decide
  have hlength : max "kitchen".toList.length "garbage".toList.length =
      max "kitten".toList.length "sitting".toList.length := by decide
  have hdistance : editDistance "kitten".toList "sitting".toList = 3 := by
    decide
  have hless : editDistance "kitten".toList "sitting".toList ≤
      editDistance "kitchen".toList "garbage".toList := by decide
  rcases editRatio_discriminates ha hb with ⟨-, hone, hzero, hformula, hcloser⟩
  refine ⟨ha, hb, hlength, hless, ?_, ?_, ?_, hcloser _ _ hlength hless⟩
  · rw [hformula (by decide), hdistance]
    rfl
  · intro hequal
    exact absurd (hone.1.1 hequal) (by decide)
  · intro hnone
    exact absurd (hzero.1.1 hnone).2 (by decide)

end Ratio

end Resemblance
