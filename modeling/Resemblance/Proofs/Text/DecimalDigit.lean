import Resemblance.Proofs.Text.LetterCase
import Resemblance.Text.Blank

/-!
# Decimal digits are neither blank nor cased

The digits of all scripts lie apart from the blanks and from the rows of the
two case mappings.  Only the bounds of the ranges are compared, not the
characters in them.
-/

namespace Resemblance.Text

open LetterCase

section Ranges

variable {rs ss : List (ℕ × ℕ)}

/-- No range of the one list meets a range of the other. -/
def disjointRanges (rs ss : List (ℕ × ℕ)) : Bool :=
  rs.all fun (low, high) =>
    ss.all fun (first, last) => high < first || last < low

theorem not_inRanges_of_disjoint
    (hdisjoint : disjointRanges rs ss = true)
    {c : Char}
    (hc : inRanges rs c = true) :
    inRanges ss c = false := by
  obtain ⟨⟨low, high⟩, hr, hc⟩ := List.any_eq_true.1 hc
  rw [Bool.eq_false_iff]
  intro hmeets
  obtain ⟨⟨first, last⟩, hs, hmeets⟩ := List.any_eq_true.1 hmeets
  have hbounds := List.all_eq_true.1 (List.all_eq_true.1 hdisjoint _ hr) _ hs
  simp only [Bool.and_eq_true, Bool.or_eq_true,
    decide_eq_true_eq] at hc hmeets hbounds
  omega

end Ranges

section Blanks

def blankRanges : List (ℕ × ℕ) :=
  [(0x09, 0x0D), (0x20, 0x20), (0x85, 0x85), (0xA0, 0xA0), (0x1680, 0x1680),
   (0x2000, 0x200A), (0x2028, 0x2029), (0x202F, 0x202F), (0x205F, 0x205F),
   (0x3000, 0x3000)]

theorem inRanges_of_isBlank
    {c : Char}
    (hc : isBlank c = true) :
    inRanges blankRanges c = true := by
  simp only [isBlank, Bool.or_eq_true, Bool.and_eq_true, decide_eq_true_eq,
    beq_iff_eq, UInt32.le_iff_toNat_le, ← UInt32.toNat_inj] at hc
  simp only [inRanges, blankRanges, List.any_cons, List.any_nil, Bool.or_false,
    Bool.or_eq_true, Bool.and_eq_true, decide_eq_true_eq]
  change (((((((((( 0x09 ≤ c.toNat ∧ c.toNat ≤ 0x0D) ∨ c.toNat = 0x20) ∨
    c.toNat = 0x85) ∨
    c.toNat = 0xA0) ∨ c.toNat = 0x1680) ∨
      (0x2000 ≤ c.toNat ∧ c.toNat ≤ 0x200A)) ∨
    c.toNat = 0x2028) ∨ c.toNat = 0x2029) ∨ c.toNat = 0x202F) ∨
      c.toNat = 0x205F) ∨
    c.toNat = 0x3000 at hc
  omega

end Blanks

section Case

theorem ascii_of_isAlphanum
    {c : Char}
    (hc : c.isAlphanum = true) :
    c.toNat < 128 := by
  simp only [Char.isAlphanum, Char.isAlpha, Char.isUpper, Char.isLower,
    Char.isDigit, Bool.or_eq_true, Bool.and_eq_true, decide_eq_true_eq,
    UInt32.le_iff_toNat_le, ge_iff_le] at hc
  change ((65 ≤ c.toNat ∧ c.toNat ≤ 90) ∨ (97 ≤ c.toNat ∧ c.toNat ≤ 122)) ∨
    (48 ≤ c.toNat ∧ c.toNat ≤ 57) at hc
  omega

theorem toLower_of_not_ascii
    {c : Char}
    (hascii : ¬ c.toNat < 128) :
    c.toLower = c := by
  apply Char.toLower_eq_of_not_isUpper
  intro hupper
  apply hascii
  apply ascii_of_isAlphanum
  simp [Char.isAlphanum, Char.isAlpha, hupper]

theorem toUpper_of_not_ascii
    {c : Char}
    (hascii : ¬ c.toNat < 128) :
    c.toUpper = c := by
  apply Char.toUpper_eq_of_not_isLower
  intro hlower
  apply hascii
  apply ascii_of_isAlphanum
  simp [Char.isAlphanum, Char.isAlpha, hlower]

theorem mapRows_of_not_inRanges
    {rows : List Row} {c : Char}
    (hc : inRanges (rows.map fun row => (row.first, row.last)) c = false) :
    mapRows rows c = c := by
  have hnone : rows.findSome? (·.imageOf? c.toNat) = none := by
    rw [List.findSome?_eq_none_iff]
    intro row hrow
    rw [inRanges, List.any_map, List.any_eq_false] at hc
    have houtside : ¬ (row.first ≤ c.toNat && c.toNat ≤ row.last) = true :=
      hc row hrow
    rw [Row.imageOf?, Bool.eq_false_iff.2 houtside]
    rfl
  rw [mapRows, hnone, Option.getD_none]

theorem lookup_of_not_inRanges
    {entries : List (ℕ × List ℕ)} {c : Char}
    (hc : inRanges (entries.map fun entry => (entry.1, entry.1)) c = false) :
    entries.lookup c.toNat = none := by
  rw [inRanges, List.any_map, List.any_eq_false] at hc
  rw [List.lookup_eq_none_iff]
  intro entry hentry
  have hother := hc entry hentry
  simp only [Function.comp_apply, Bool.and_eq_true, decide_eq_true_eq] at hother
  rw [bne_iff_ne]
  omega

end Case

section Digits

variable {c : Char}

theorem inRanges_of_isDecimalDigit (hc : isDecimalDigit c = true) :
    inRanges decimalDigitRanges c = true := by
  unfold isDecimalDigit at hc
  split at hc
  next =>
    simp only [Char.isDigit, Bool.and_eq_true, decide_eq_true_eq,
      UInt32.le_iff_toNat_le, ge_iff_le] at hc
    have hrow : (0x30, 0x39) ∈ decimalDigitRanges := List.mem_cons_self
    exact List.any_eq_true.2 ⟨_, hrow, by simpa using hc⟩
  next => exact hc

theorem not_blank_of_isDecimalDigit (hc : isDecimalDigit c = true) :
    isBlank c = false := by
  have hapart : inRanges blankRanges c = false :=
    not_inRanges_of_disjoint (by decide +kernel) (inRanges_of_isDecimalDigit hc)
  rw [Bool.eq_false_iff] at hapart ⊢
  exact mt inRanges_of_isBlank hapart

theorem lowerLetter_of_isDecimalDigit (hc : isDecimalDigit c = true) :
    lowerLetter c = [c.toLower] := by
  unfold lowerLetter
  split
  next => rfl
  next hascii =>
    have hdotted : (c == '\u0130') = false := by
      rw [beq_eq_false_iff_ne]
      rintro rfl
      exact absurd hc (by decide +kernel)
    have hrows : inRanges (lowerRows.map fun row => (row.first, row.last)) c =
        false :=
      not_inRanges_of_disjoint (by decide +kernel)
        (inRanges_of_isDecimalDigit hc)
    rw [hdotted, mapRows_of_not_inRanges hrows, toLower_of_not_ascii hascii]
    rfl

theorem upperLetter_of_isDecimalDigit (hc : isDecimalDigit c = true) :
    upperLetter c = [c.toUpper] := by
  unfold upperLetter
  split
  next => rfl
  next hascii =>
    have hcodes :
        inRanges (upperExpansions.map fun entry => (entry.1, entry.1)) c =
          false :=
      not_inRanges_of_disjoint (by decide +kernel)
        (inRanges_of_isDecimalDigit hc)
    have hrows :
        inRanges (upperRows.map fun row => (row.first, row.last)) c = false :=
      not_inRanges_of_disjoint (by decide +kernel)
        (inRanges_of_isDecimalDigit hc)
    rw [lookup_of_not_inRanges hcodes, toUpper_of_not_ascii hascii]
    change [mapRows upperRows c] = [c]
    rw [mapRows_of_not_inRanges hrows]

end Digits

end Resemblance.Text
