import Resemblance.Proofs.Double.Order
import Resemblance.Proofs.Measure.Identity

/-!
# Measures in the unit interval

No measure leaves the unit interval.  An intersection is no larger than the
union and a distance no longer than the longer text, so both are parts of a
whole; a cosine divides by a root that is at least one and is cut off at one.
-/

namespace Resemblance

open Double Decimal

section Parts

/-- A part of a whole number that fits into sixty-four bits. -/
theorem inUnit_nearestNat_div
    {k n : ℕ}
    (hpos : 0 < n)
    (hkn : k ≤ n)
    (hsmall : n < 2 ^ 64) :
    InUnit (nearestNat k / nearestNat n) := by
  have hpart :=
    denotes_nearestNat (natCast_lt_two_zpow (hkn.trans_lt hsmall) (by norm_num))
  have hwhole := denotes_nearestNat (natCast_lt_two_zpow hsmall (by norm_num))
  apply hpart.inUnit_div hwhole
  · exact zero_lt_one.trans_le (one_le_rounded_natCast hpos)
  · exact rounded_mono (Nat.cast_nonneg k) (by exact_mod_cast hkn)

theorem exists_denotes_nearestNat_div
    {k n : ℕ}
    (hpos : 0 < k)
    (hkn : k ≤ n)
    (hsmall : n < 2 ^ 65) :
    ∃ r, Denotes (nearestNat k / nearestNat n) r ∧ 0 < r := by
  have hpart :=
    denotes_nearestNat (natCast_lt_two_zpow (hkn.trans_lt hsmall) (by norm_num))
  have hwhole := denotes_nearestNat (natCast_lt_two_zpow hsmall (by norm_num))
  have hone := one_le_rounded_natCast hpos
  have hone' := one_le_rounded_natCast (hpos.trans_le hkn)
  have hlow : (2 : ℝ) ^ (-65 : ℤ) ≤ rounded k / rounded n := by
    calc (2 : ℝ) ^ (-65 : ℤ) = 1 / 2 ^ ((65 : ℕ) : ℤ) := by norm_num
      _ ≤ rounded k / rounded n :=
          div_le_div₀ (rounded_nonneg _) hone (zero_lt_one.trans_le hone')
            (rounded_natCast_le hsmall)
  have hle : rounded k / rounded n ≤ 1 :=
    div_le_one_of_le₀ (rounded_mono (Nat.cast_nonneg k) (by exact_mod_cast hkn))
      (rounded_nonneg _)
  refine ⟨_,
    hpart.div hwhole (zero_lt_one.trans_le hone') (lt_two_zpow_of_le_one hle),
    ?_⟩
  calc (0 : ℝ) < 2 ^ (-65 : ℤ) := by positivity
    _ = rounded (2 ^ (-65 : ℤ)) := (rounded_two_zpow (by norm_num)).symm
    _ ≤ rounded (rounded k / rounded n) := rounded_mono (by positivity) hlow

theorem nearestNat_div_beq_zero_iff
    {k n : ℕ}
    (hpos : 0 < n)
    (hkn : k ≤ n)
    (hsmall : n < 2 ^ 65) :
    (nearestNat k / nearestNat n == 0.0) = true ↔ k = 0 := by
  constructor
  · intro hzero
    by_contra hk
    rcases exists_denotes_nearestNat_div (Nat.pos_of_ne_zero hk) hkn hsmall with
      ⟨r, hr, hr'⟩
    rw [hr.beq_zero hr'] at hzero
    cases hzero
  · rintro rfl
    have hnone : nearestNat 0 / nearestNat n = 0.0 := zero_div_nearestNat hpos
    rw [hnone]
    rfl

theorem nearestNat_div_eq_zero_iff
    {k n : ℕ}
    (hpos : 0 < n)
    (hkn : k ≤ n)
    (hsmall : n < 2 ^ 65) :
    nearestNat k / nearestNat n = 0.0 ↔ k = 0 := by
  constructor
  · intro hzero
    apply (nearestNat_div_beq_zero_iff hpos hkn hsmall).1
    rw [hzero]
    rfl
  · rintro rfl
    exact zero_div_nearestNat hpos

theorem div_le_below_one
    {k n : ℕ}
    (hkn : k < n)
    (hexact : n ≤ 2 ^ 53) :
    (k / n : ℝ) ≤ 1 - 1 / 2 ^ 53 := by
  have hn : (0 : ℝ) < n := by exact_mod_cast Nat.zero_lt_of_lt hkn
  have hproper : (k : ℝ) + 1 ≤ n := by exact_mod_cast hkn
  have hlarge : (n : ℝ) ≤ 2 ^ 53 := by exact_mod_cast hexact
  rw [div_le_iff₀ hn]
  linarith

theorem denotes_nearestNat_of_le
    {n : ℕ}
    (hexact : n ≤ 2 ^ 53) :
    Denotes (nearestNat n) n := by
  have hsmall : n < 2 ^ 54 := hexact.trans_lt (by norm_num)
  have hdenotes := denotes_nearestNat (natCast_lt_two_zpow hsmall (by norm_num))
  rwa [rounded_natCast hexact] at hdenotes

/-- Up to `2 ^ 53` both numbers are doubles and the quotient is rounded once. -/
theorem denotes_nearestNat_div
    {k n : ℕ}
    (hpos : 0 < n)
    (hkn : k ≤ n)
    (hexact : n ≤ 2 ^ 53) :
    Denotes (nearestNat k / nearestNat n) (rounded (k / n)) := by
  have hone : (k / n : ℝ) ≤ 1 :=
    div_le_one_of_le₀ (by exact_mod_cast hkn) (Nat.cast_nonneg n)
  have hpart := denotes_nearestNat_of_le (hkn.trans hexact)
  have hwhole := denotes_nearestNat_of_le hexact
  exact hpart.div hwhole (by exact_mod_cast hpos) (lt_two_zpow_of_le_one hone)

/-- Up to `2 ^ 53` a part is told from the whole. -/
theorem nearestNat_div_eq_one_iff
    {k n : ℕ}
    (hpos : 0 < n)
    (hkn : k ≤ n)
    (hexact : n ≤ 2 ^ 53) :
    nearestNat k / nearestNat n = 1.0 ↔ k = n := by
  constructor
  · intro hone
    by_contra hne
    have hbelow := div_le_below_one (Nat.lt_of_le_of_ne hkn hne) hexact
    rw [(denotes_nearestNat_div hpos hkn hexact).eq_iff denotes_one] at hone
    exact (rounded_lt_one (by positivity) hbelow).ne hone
  · rintro rfl
    exact nearestNat_div_self hpos (by omega)

end Parts

section Cosine

namespace Frequency

theorem squaredNorm_eq_sum_of_subset
    {f : Frequency} {ws : Finset String}
    (hterms : f.terms ⊆ ws) :
    f.squaredNorm = ∑ w ∈ ws, f.get w * f.get w := by
  rw [squaredNorm_eq_sum]
  apply Finset.sum_subset hterms
  intro w _ hw
  rw [get_eq_zero hw, Nat.zero_mul]

/-- The product of two numbers is at most half the sum of their squares. -/
theorem two_mul_dot_le (f g : Frequency) :
    2 * f.dot g ≤ f.squaredNorm + g.squaredNorm := by
  have hsquares : ∀ w,
      2 * (f.get w * g.get w) ≤ f.get w * f.get w + g.get w * g.get w := by
    intro w
    have hsquare := two_mul_le_add_sq (f.get w) (g.get w)
    rw [mul_assoc, sq, sq] at hsquare
    exact hsquare
  calc 2 * f.dot g = ∑ w ∈ f.terms ∪ g.terms, 2 * (f.get w * g.get w) := by
        rw [dot_eq_sum, Finset.mul_sum]
    _ ≤ ∑ w ∈ f.terms ∪ g.terms, (f.get w * f.get w + g.get w * g.get w) :=
        Finset.sum_le_sum fun w _ => hsquares w
    _ = f.squaredNorm + g.squaredNorm := by
        rw [Finset.sum_add_distrib,
          ← squaredNorm_eq_sum_of_subset Finset.subset_union_left,
          ← squaredNorm_eq_sum_of_subset Finset.subset_union_right]

/-- The root that a dot product is divided by. -/
theorem denotes_sqrt_mul
    {n m : ℕ}
    (hn : 0 < n)
    (hn' : n < 2 ^ 64)
    (hm : 0 < m)
    (hm' : m < 2 ^ 64) :
    Denotes (nearestNat n * nearestNat m).sqrt
      (rounded √(rounded (rounded n * rounded m))) := by
  have hproduct : 1 ≤ rounded n * rounded m :=
    one_le_mul_of_one_le_of_one_le (one_le_rounded_natCast hn)
      (one_le_rounded_natCast hm)
  have hproduct' : rounded n * rounded m ≤ 2 ^ (128 : ℤ) := by
    calc rounded n * rounded m ≤ 2 ^ ((64 : ℕ) : ℤ) * 2 ^ ((64 : ℕ) : ℤ) :=
          mul_le_mul (rounded_natCast_le hn') (rounded_natCast_le hm')
            (rounded_nonneg _)
            (by positivity)
      _ = 2 ^ (128 : ℤ) := by norm_num
  have hfar : (2 : ℝ) ^ (128 : ℤ) < 2 ^ (1023 : ℤ) := by
    gcongr <;> norm_num
  have hsquare := one_le_rounded hproduct
  have hsquare' :=
    rounded_le_two_zpow (zero_le_one.trans hproduct) hproduct' (by norm_num)
  have hroot : √(rounded (rounded n * rounded m)) < 2 ^ (1023 : ℤ) :=
    ((Real.sqrt_le_self_iff.2 (.inr hsquare)).trans hsquare').trans_lt hfar
  have hleft := denotes_nearestNat (natCast_lt_two_zpow hn' (by norm_num))
  have hright := denotes_nearestNat (natCast_lt_two_zpow hm' (by norm_num))
  exact (hleft.mul hright (hproduct'.trans_lt hfar)).sqrt hroot

theorem one_le_rounded_sqrt_mul
    {n m : ℕ}
    (hn : 0 < n)
    (hm : 0 < m) :
    1 ≤ rounded √(rounded (rounded n * rounded m)) := by
  have hproduct : 1 ≤ rounded n * rounded m :=
    one_le_mul_of_one_le_of_one_le (one_le_rounded_natCast hn)
      (one_le_rounded_natCast hm)
  exact one_le_rounded (Real.one_le_sqrt.2 (one_le_rounded hproduct))

/-- The quotient before it is cut off at one. -/
def quotient (f g : Frequency) : Float :=
  nearestNat (f.dot g) /
    (nearestNat f.squaredNorm * nearestNat g.squaredNorm).sqrt

variable {f g : Frequency}

theorem denotes_quotient
    (hf : 0 < f.squaredNorm)
    (hf' : f.squaredNorm < 2 ^ 64)
    (hg : 0 < g.squaredNorm)
    (hg' : g.squaredNorm < 2 ^ 64) :
    Denotes (f.quotient g) (rounded (rounded (f.dot g) /
      rounded √(rounded (rounded f.squaredNorm * rounded g.squaredNorm)))) := by
  have hone := one_le_rounded_sqrt_mul hf hg
  have hdot : f.dot g < 2 ^ 64 := by
    have hsum := two_mul_dot_le f g
    omega
  have hdenotes := denotes_nearestNat (natCast_lt_two_zpow hdot (by norm_num))
  apply hdenotes.div (denotes_sqrt_mul hf hf' hg hg')
    (zero_lt_one.trans_le hone)
  calc rounded (f.dot g) / _
      ≤ rounded (f.dot g) := div_le_self (rounded_nonneg _) hone
    _ ≤ 2 ^ ((64 : ℕ) : ℤ) := rounded_natCast_le hdot
    _ < 2 ^ (1023 : ℤ) := by gcongr <;> norm_num

theorem cosine_eq_smaller_quotient
    (hf : 0 < f.squaredNorm)
    (hf' : f.squaredNorm < 2 ^ 64)
    (hg : 0 < g.squaredNorm)
    (hg' : g.squaredNorm < 2 ^ 64)
    (hdot : f.dot g ≠ 0) :
    f.cosine g = Score.smaller (f.quotient g) 1.0 := by
  have hpos := zero_lt_one.trans_le (one_le_rounded_sqrt_mul hf hg)
  have hroot := (denotes_sqrt_mul hf hf' hg hg').beq_zero hpos
  simp only [cosine, quotient, hdot, hroot, if_false, Bool.false_eq_true]

theorem denotes_cosine
    (hf : 0 < f.squaredNorm)
    (hf' : f.squaredNorm < 2 ^ 64)
    (hg : 0 < g.squaredNorm)
    (hg' : g.squaredNorm < 2 ^ 64) :
    Denotes (f.cosine g)
      (min
        (rounded (rounded (f.dot g) /
          rounded √(rounded (rounded f.squaredNorm * rounded g.squaredNorm))))
        1) := by
  by_cases hdot : f.dot g = 0
  · rw [cosine_of_dot_eq_zero hdot, hdot, Nat.cast_zero, rounded_zero, zero_div,
      rounded_zero, min_eq_left zero_le_one]
    exact .zero
  · rw [cosine_eq_smaller_quotient hf hf' hg hg' hdot]
    exact (denotes_quotient hf hf' hg hg').smaller_one

theorem inUnit_cosine
    (hf : 0 < f.squaredNorm)
    (hf' : f.squaredNorm < 2 ^ 64)
    (hg : 0 < g.squaredNorm)
    (hg' : g.squaredNorm < 2 ^ 64) :
    InUnit (f.cosine g) :=
  .of (denotes_cosine hf hf' hg hg') (min_le_right _ _)

end Frequency

theorem inUnit_cosine
    {a b : List String}
    (ha : a.length < 2 ^ 32)
    (hb : b.length < 2 ^ 32) :
    InUnit (cosine a b) := by
  unfold cosine
  cases a with
  | nil => exact inUnit_zero
  | cons v a =>
      cases b with
      | nil => exact inUnit_zero
      | cons w b =>
          exact Frequency.inUnit_cosine
            (Frequency.squaredNorm_ofTerms_pos (List.cons_ne_nil v a))
            (Frequency.squaredNorm_ofTerms_lt ha)
            (Frequency.squaredNorm_ofTerms_pos (List.cons_ne_nil w b))
            (Frequency.squaredNorm_ofTerms_lt hb)

end Cosine

section Jaccard

theorem StringSet.interSize_le (s t : StringSet) :
    s.interSize t ≤ s.size ∧ s.interSize t ≤ t.size := by
  have hsize : ∀ u : StringSet, u.toList.toFinset.card = u.size := fun u =>
    List.toFinset_card_of_nodup u.nodup_toList
  rw [interSize_eq_card, ← hsize s, ← hsize t]
  exact ⟨Finset.card_le_card Finset.inter_subset_left,
    Finset.card_le_card Finset.inter_subset_right⟩

theorem StringSet.inUnit_jaccard
    {s t : StringSet}
    (hs : s.size < 2 ^ 32)
    (ht : t.size < 2 ^ 32) :
    InUnit (s.jaccard t) := by
  obtain ⟨hleft, hright⟩ := s.interSize_le t
  unfold jaccard
  by_cases hempty : s.size + t.size - s.interSize t = 0
  · simp only [hempty, if_true]
    exact inUnit_zero
  · simp only [hempty, if_false]
    exact inUnit_nearestNat_div (by omega) (by omega) (by omega)

theorem inUnit_jaccard
    {a b : List String}
    (ha : a.length < 2 ^ 32)
    (hb : b.length < 2 ^ 32) :
    InUnit (jaccard a b) := by
  unfold jaccard
  split
  · exact inUnit_zero
  · exact StringSet.inUnit_jaccard ((StringSet.size_ofList_le a).trans_lt ha)
      ((StringSet.size_ofList_le b).trans_lt hb)

end Jaccard

section EditRatio

theorem inUnit_editRatio
    {a b : List Char}
    (ha : a.length < 2 ^ 64)
    (hb : b.length < 2 ^ 64) :
    InUnit (editRatio a b) := by
  cases a with
  | nil =>
      cases b with
      | nil => exact inUnit_one
      | cons d b => exact inUnit_zero
  | cons c a =>
      cases b with
      | nil => exact inUnit_zero
      | cons d b =>
          have hpos : 0 < max (c :: a).length (d :: b).length :=
            lt_max_of_lt_left (Nat.succ_pos _)
          exact (inUnit_nearestNat_div hpos (editDistance_le _ _)
            (max_lt ha hb)).one_sub

end EditRatio

end Resemblance
