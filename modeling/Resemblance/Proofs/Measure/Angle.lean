import Mathlib.Algebra.Order.BigOperators.Ring.Finset
import Mathlib.Algebra.Order.Group.Multiset
import Mathlib.Tactic.Ring
import Resemblance.Proofs.Measure.UnitInterval

/-!
# The cosine as an angle

A dot product is at most the product of the two lengths, and it is as large only
if the tables are proportional.  The exact quotient therefore never exceeds one;
a quotient of doubles exceeds it by no more than what the roundings on the way
can add, and this is all that is cut off.
-/

namespace Resemblance

open Double Decimal

namespace Frequency

section Exact

variable {f g : Frequency}

theorem dot_sq_le (f g : Frequency) :
    f.dot g ^ 2 ≤ f.squaredNorm * g.squaredNorm := by
  have hsums := Finset.sum_mul_sq_le_sq_mul_sq (f.terms ∪ g.terms) f.get g.get
  simp only [sq (f.get _), sq (g.get _)] at hsums
  rwa [← dot_eq_sum, ← squaredNorm_eq_sum_of_subset Finset.subset_union_left,
    ← squaredNorm_eq_sum_of_subset Finset.subset_union_right] at hsums

theorem cast_squaredNorm_of_subset
    {terms : Finset String}
    (hterms : f.terms ⊆ terms) :
    (f.squaredNorm : ℤ) = ∑ w ∈ terms, (f.get w * f.get w : ℤ) := by
  rw [squaredNorm_eq_sum_of_subset hterms]
  push_cast
  rfl

/-- How far the two tables are from being proportional, with the dot product and
the squared length of the second one as the factors. -/
theorem sum_sq_sub_eq (f g : Frequency) :
    ∑ w ∈ f.terms ∪ g.terms,
      ((g.squaredNorm : ℤ) * f.get w - f.dot g * g.get w) ^ 2 =
      g.squaredNorm * (f.squaredNorm * g.squaredNorm - f.dot g ^ 2) := by
  have hdot : (f.dot g : ℤ) = ∑ w ∈ f.terms ∪ g.terms,
      (f.get w * g.get w : ℤ) := by
    rw [dot_eq_sum]
    push_cast
    rfl
  have hf : (f.squaredNorm : ℤ) = ∑ w ∈ f.terms ∪ g.terms,
      (f.get w * f.get w : ℤ) :=
    cast_squaredNorm_of_subset Finset.subset_union_left
  have hg : (g.squaredNorm : ℤ) = ∑ w ∈ f.terms ∪ g.terms,
      (g.get w * g.get w : ℤ) :=
    cast_squaredNorm_of_subset Finset.subset_union_right
  have hsquare : ∀ w, ((g.squaredNorm : ℤ) * f.get w - f.dot g * g.get w) ^ 2 =
      (g.squaredNorm : ℤ) ^ 2 * (f.get w * f.get w) -
        2 * g.squaredNorm * f.dot g * (f.get w * g.get w) +
        (f.dot g : ℤ) ^ 2 * (g.get w * g.get w) := by
    intro w
    ring
  simp only [hsquare, Finset.sum_add_distrib, Finset.sum_sub_distrib,
    ← Finset.mul_sum, ← hdot, ← hf, ← hg]
  ring

theorem mul_dot_of_proportional
    {k m : ℕ}
    (hprop : ∀ w, k * f.get w = m * g.get w) :
    k * f.dot g = m * g.squaredNorm := by
  rw [dot_eq_sum,
    squaredNorm_eq_sum_of_subset (f := g) Finset.subset_union_right,
    Finset.mul_sum, Finset.mul_sum]
  apply Finset.sum_congr rfl
  intro w _
  rw [← mul_assoc, hprop, mul_assoc]

theorem dot_sq_eq_iff
    (hf : 0 < f.squaredNorm)
    (hg : 0 < g.squaredNorm) :
    f.dot g ^ 2 = f.squaredNorm * g.squaredNorm ↔
      ∃ k m, 0 < k ∧ 0 < m ∧ ∀ w, k * f.get w = m * g.get w := by
  constructor
  · intro heq
    have hdot : 0 < f.dot g := by
      have hproduct := Nat.mul_pos hf hg
      rw [← heq] at hproduct
      exact Nat.pos_of_ne_zero (pow_ne_zero_iff two_ne_zero |>.1 hproduct.ne')
    have hzero : ∑ w ∈ f.terms ∪ g.terms,
        ((g.squaredNorm : ℤ) * f.get w - f.dot g * g.get w) ^ 2 = 0 := by
      rw [sum_sq_sub_eq, sub_eq_zero.2 (by exact_mod_cast heq.symm), mul_zero]
    rw [Finset.sum_eq_zero_iff_of_nonneg fun _ _ => sq_nonneg _] at hzero
    refine ⟨g.squaredNorm, f.dot g, hg, hdot, ?_⟩
    intro w
    by_cases hw : w ∈ f.terms ∪ g.terms
    · have hdifference := pow_eq_zero_iff two_ne_zero |>.1 (hzero w hw)
      exact_mod_cast sub_eq_zero.1 hdifference
    · simp only [Finset.mem_union, not_or] at hw
      rw [get_eq_zero hw.1, get_eq_zero hw.2, mul_zero, mul_zero]
  · rintro ⟨k, m, hk, hm, hprop⟩
    have hleft := mul_dot_of_proportional hprop
    have hright := mul_dot_of_proportional fun w => (hprop w).symm
    rw [dot_comm] at hright
    apply Nat.eq_of_mul_eq_mul_left (Nat.mul_pos hk hm)
    calc k * m * f.dot g ^ 2 = (k * f.dot g) * (m * f.dot g) := by ring
      _ = k * m * (f.squaredNorm * g.squaredNorm) := by
          rw [hleft, hright]
          ring

end Exact

section Quotient

/-- The cosine without any rounding. -/
noncomputable def exactCosine (f g : Frequency) : ℝ :=
  f.dot g / √(f.squaredNorm * g.squaredNorm)

variable {f g : Frequency}

theorem sqrt_mul_pos
    (hf : 0 < f.squaredNorm)
    (hg : 0 < g.squaredNorm) :
    0 < √(f.squaredNorm * g.squaredNorm : ℝ) := by
  positivity

theorem exactCosine_le_one (f g : Frequency) : f.exactCosine g ≤ 1 := by
  have hdot : (f.dot g : ℝ) ≤ √(f.squaredNorm * g.squaredNorm) := by
    apply Real.le_sqrt_of_sq_le
    exact_mod_cast dot_sq_le f g
  exact div_le_one_of_le₀ hdot (Real.sqrt_nonneg _)

theorem exactCosine_eq_one_iff
    (hf : 0 < f.squaredNorm)
    (hg : 0 < g.squaredNorm) :
    f.exactCosine g = 1 ↔ f.dot g ^ 2 = f.squaredNorm * g.squaredNorm := by
  have hroot := sqrt_mul_pos hf hg
  rw [exactCosine, div_eq_one_iff_eq hroot.ne', eq_comm,
    Real.sqrt_eq_iff_mul_self_eq (by positivity) (Nat.cast_nonneg _)]
  constructor
  · intro heq
    rw [sq]
    exact_mod_cast heq.symm
  · intro heq
    rw [sq] at heq
    exact_mod_cast heq.symm

/-- Each of the roundings below the fraction bar takes away at most one part in
`2 ^ 53`. -/
theorem sqrt_mul_le_rounded
    {n m : ℕ}
    (hn : 0 < n)
    (hm : 0 < m) :
    √(n * m : ℝ) * (1 - 1 / 2 ^ 53) ^ 3 ≤
      rounded √(rounded (rounded n * rounded m)) := by
  have hn' := one_le_rounded_natCast hn
  have hm' := one_le_rounded_natCast hm
  have hleft : (n : ℝ) * (1 - 1 / 2 ^ 53) ≤ rounded n :=
    mul_le_rounded (by exact_mod_cast hn)
  have hright : (m : ℝ) * (1 - 1 / 2 ^ 53) ≤ rounded m :=
    mul_le_rounded (by exact_mod_cast hm)
  have hproduct := one_le_mul_of_one_le_of_one_le hn' hm'
  have hsquare : (√(n * m : ℝ) * (1 - 1 / 2 ^ 53) ^ 2) ^ 2 ≤
      rounded (rounded n * rounded m) := by
    calc (√(n * m : ℝ) * (1 - 1 / 2 ^ 53) ^ 2) ^ 2
        = (n * m : ℝ) * (1 - 1 / 2 ^ 53) ^ 3 * (1 - 1 / 2 ^ 53) := by
          rw [mul_pow, Real.sq_sqrt (by positivity)]
          ring
      _ ≤ (n * m : ℝ) * (1 - 1 / 2 ^ 53) ^ 3 :=
          mul_le_of_le_one_right (by norm_num; positivity) (by norm_num)
      _ = (n * (1 - 1 / 2 ^ 53)) * (m * (1 - 1 / 2 ^ 53)) *
            (1 - 1 / 2 ^ 53) := by ring
      _ ≤ rounded n * rounded m * (1 - 1 / 2 ^ 53) := by
          gcongr
      _ ≤ rounded (rounded n * rounded m) := mul_le_rounded hproduct
  have hroot : 1 ≤ √(rounded (rounded n * rounded m)) :=
    Real.one_le_sqrt.2 (one_le_rounded hproduct)
  calc √(n * m : ℝ) * (1 - 1 / 2 ^ 53) ^ 3
      = √(n * m : ℝ) * (1 - 1 / 2 ^ 53) ^ 2 * (1 - 1 / 2 ^ 53) := by ring
    _ ≤ √(rounded (rounded n * rounded m)) * (1 - 1 / 2 ^ 53) := by
        gcongr
        exact Real.le_sqrt_of_sq_le hsquare
    _ ≤ rounded √(rounded (rounded n * rounded m)) := mul_le_rounded hroot

theorem two_zpow_le_div_sqrt
    {d n m : ℕ}
    (hd : 0 < d)
    (hn : 0 < n)
    (hn' : n < 2 ^ 64)
    (hm : 0 < m)
    (hm' : m < 2 ^ 64) :
    (2 : ℝ) ^ (-1022 : ℤ) ≤ d / √(n * m : ℝ) := by
  have hone : (1 : ℝ) ≤ d := by exact_mod_cast hd
  have hleft : (n : ℝ) ≤ 2 ^ 64 := by exact_mod_cast hn'.le
  have hright : (m : ℝ) ≤ 2 ^ 64 := by exact_mod_cast hm'.le
  have hroot : √(n * m : ℝ) ≤ 2 ^ 64 := by
    rw [Real.sqrt_le_left (by positivity), sq]
    gcongr
  calc (2 : ℝ) ^ (-1022 : ℤ) ≤ 2 ^ (-64 : ℤ) := by gcongr <;> norm_num
    _ = 1 / 2 ^ 64 := by norm_num
    _ ≤ d / √(n * m : ℝ) := by gcongr

theorem rounded_quotient_le
    {d n m : ℕ}
    (hn : 0 < n)
    (hn' : n < 2 ^ 64)
    (hm : 0 < m)
    (hm' : m < 2 ^ 64) :
    rounded (rounded d / rounded √(rounded (rounded n * rounded m))) ≤
      d / √(n * m : ℝ) * (1 + 1 / 2 ^ 50) := by
  rcases Nat.eq_zero_or_pos d with rfl | hd
  · simp [rounded_zero]
  have hroot : 0 < √(n * m : ℝ) * (1 - 1 / 2 ^ 53) ^ 3 := by
    apply mul_pos
    · positivity
    · norm_num
  have hsmall := two_zpow_le_div_sqrt hd hn hn' hm hm'
  have hpos : 0 ≤ d / √(n * m : ℝ) := by positivity
  have hquotient : rounded d / rounded √(rounded (rounded n * rounded m)) ≤
      d / √(n * m : ℝ) * (1 + 5 / 2 ^ 53) := by
    calc rounded d / rounded √(rounded (rounded n * rounded m))
        ≤ d * (1 + 1 / 2 ^ 53) / (√(n * m : ℝ) * (1 - 1 / 2 ^ 53) ^ 3) :=
          div_le_div₀ (by positivity)
            (rounded_le_mul (two_zpow_le_natCast hd)) hroot
            (sqrt_mul_le_rounded hn hm)
      _ = d / √(n * m : ℝ) * ((1 + 1 / 2 ^ 53) / (1 - 1 / 2 ^ 53) ^ 3) := by
          rw [mul_div_mul_comm]
      _ ≤ d / √(n * m : ℝ) * (1 + 5 / 2 ^ 53) := by
          gcongr
          norm_num
  calc rounded (rounded d / rounded √(rounded (rounded n * rounded m)))
      ≤ rounded (d / √(n * m : ℝ) * (1 + 5 / 2 ^ 53)) :=
        rounded_mono (div_nonneg (rounded_nonneg _) (rounded_nonneg _))
          hquotient
    _ ≤ d / √(n * m : ℝ) * (1 + 5 / 2 ^ 53) * (1 + 1 / 2 ^ 53) := by
        apply rounded_le_mul
        exact hsmall.trans (le_mul_of_one_le_right hpos (by norm_num))
    _ = d / √(n * m : ℝ) * ((1 + 5 / 2 ^ 53) * (1 + 1 / 2 ^ 53)) :=
        mul_assoc _ _ _
    _ ≤ d / √(n * m : ℝ) * (1 + 1 / 2 ^ 50) := by
        gcongr
        norm_num

end Quotient

end Frequency

open Frequency

/-- A dot product against the two lengths; the last part says what is cut off at
one. -/
theorem dot_bounded_by_lengths
    {a b : List String}
    (ha : a ≠ [])
    (ha' : a.length < 2 ^ 32)
    (hb : b ≠ [])
    (hb' : b.length < 2 ^ 32) :
    (ofTerms a).dot (ofTerms b) ^ 2 ≤
      (ofTerms a).squaredNorm * (ofTerms b).squaredNorm ∧
    ((ofTerms a).dot (ofTerms b) ^ 2 =
        (ofTerms a).squaredNorm * (ofTerms b).squaredNorm ↔
      ∃ k m, 0 < k ∧ 0 < m ∧ ∀ w, k * a.count w = m * b.count w) ∧
    (ofTerms a).exactCosine (ofTerms b) ≤ 1 ∧
    ((ofTerms a).exactCosine (ofTerms b) = 1 ↔
      ∃ k m, 0 < k ∧ 0 < m ∧
        k • (a : Multiset String) = m • (b : Multiset String)) ∧
    ∃ x, Denotes ((ofTerms a).quotient (ofTerms b)) x ∧
      Denotes (cosine a b) (min x 1) ∧
      x ≤ (ofTerms a).exactCosine (ofTerms b) * (1 + 1 / 2 ^ 50) := by
  have hf := squaredNorm_ofTerms_pos ha
  have hf' := squaredNorm_ofTerms_lt ha'
  have hg := squaredNorm_ofTerms_pos hb
  have hg' := squaredNorm_ofTerms_lt hb'
  have hiff := dot_sq_eq_iff hf hg
  simp only [get_ofTerms] at hiff
  refine ⟨dot_sq_le _ _, hiff, exactCosine_le_one _ _, ?_, ?_⟩
  · rw [exactCosine_eq_one_iff hf hg, hiff]
    simp only [Multiset.ext, Multiset.count_nsmul, Multiset.coe_count]
  · refine ⟨_, denotes_quotient hf hf' hg hg', ?_,
      rounded_quotient_le hf hf' hg hg'⟩
    rw [cosine_eq_cosine_ofTerms]
    exact denotes_cosine hf hf' hg hg'

/-- Three times the one sequence and two times the other hold the same terms. -/
theorem dot_bounded_by_lengths_of_multiples :
    ["p", "q", "q", "p"] ≠ [] ∧ ["p", "q", "q", "p"].length < 2 ^ 32 ∧
    ["p", "q", "p", "q", "p", "q"] ≠ [] ∧
      ["p", "q", "p", "q", "p", "q"].length < 2 ^ 32 ∧
    (∀ w, 3 * ["p", "q", "q", "p"].count w =
      2 * ["p", "q", "p", "q", "p", "q"].count w) ∧
    (ofTerms ["p", "q", "q", "p"]).dot
        (ofTerms ["p", "q", "p", "q", "p", "q"]) ^ 2 =
      (ofTerms ["p", "q", "q", "p"]).squaredNorm *
        (ofTerms ["p", "q", "p", "q", "p", "q"]).squaredNorm ∧
    (ofTerms ["p", "q", "q", "p"]).exactCosine
        (ofTerms ["p", "q", "p", "q", "p", "q"]) = 1 := by
  have ha : ["p", "q", "q", "p"] ≠ [] := by simp
  have hb : ["p", "q", "p", "q", "p", "q"] ≠ [] := by simp
  have ha' : ["p", "q", "q", "p"].length < 2 ^ 32 := by simp
  have hb' : ["p", "q", "p", "q", "p", "q"].length < 2 ^ 32 := by simp
  have hcounts : ∀ w, 3 * ["p", "q", "q", "p"].count w =
      2 * ["p", "q", "p", "q", "p", "q"].count w := by
    intro w
    simp only [List.count_cons, List.count_nil]
    omega
  rcases dot_bounded_by_lengths ha ha' hb hb' with ⟨-, hequal, -, hone, -⟩
  refine ⟨ha, ha', hb, hb', hcounts,
    hequal.2 ⟨3, 2, by simp, by simp, hcounts⟩, ?_⟩
  refine hone.2 ⟨3, 2, by simp, by simp, ?_⟩
  ext w
  simpa using hcounts w

end Resemblance
