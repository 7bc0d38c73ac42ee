import Resemblance.Proofs.Text.DecimalDigit

/-!
# Lowered texts hold no capital of ASCII

Full case mapping takes some letters outside ASCII into it, such as the sign
for kelvin, but always to a small letter.  The images of the rows are compared
as ranges with the range of the capitals.
-/

namespace Resemblance.Text

open LetterCase

theorem isUpper_iff {c : Char} :
    c.isUpper = true ↔ 65 ≤ c.toNat ∧ c.toNat ≤ 90 := by
  simp [Char.isUpper, UInt32.le_iff_toNat_le, ← Char.toNat_val]

section Rows

variable {row : Row} {rows : List Row} {c d : Char}

/-- The code points that a row leads to. -/
def imageRange (row : Row) : ℕ × ℕ :=
  (row.image, row.image + (row.last - row.first))

theorem exists_of_imageOf? (himage : row.imageOf? c.toNat = some d) :
    ∃ n, (imageRange row).1 ≤ n ∧ n ≤ (imageRange row).2 ∧
      d = Char.ofNat n := by
  unfold Row.imageOf? at himage
  split at himage
  next hrow =>
    simp only [Bool.and_eq_true, decide_eq_true_eq] at hrow
    refine ⟨row.image + (c.toNat - row.first), ?_, ?_,
      (Option.some.inj himage).symm⟩
    · exact Nat.le_add_right _ _
    · simp only [imageRange]
      omega
  next => contradiction

theorem mapRows_cases
    (rows : List Row)
    (c : Char) :
    mapRows rows c = c ∨
      ∃ row ∈ rows, row.imageOf? c.toNat = some (mapRows rows c) := by
  unfold mapRows
  cases hfound : rows.findSome? (·.imageOf? c.toNat) with
  | none => exact .inl rfl
  | some d =>
      obtain ⟨row, hrow, himage⟩ := List.exists_of_findSome?_eq_some hfound
      exact .inr ⟨row, hrow, himage⟩

theorem not_isUpper_mapRows
    (hapart : disjointRanges (rows.map imageRange) [(65, 90)] = true)
    (hc : c.isUpper = false) :
    (mapRows rows c).isUpper = false := by
  rcases mapRows_cases rows c with hsame | ⟨row, hrow, himage⟩
  · rw [hsame]
    exact hc
  · obtain ⟨n, hlow, hhigh, himage⟩ := exists_of_imageOf? himage
    rw [himage, Bool.eq_false_iff]
    intro hupper
    have hcapital := isUpper_iff.1 hupper
    rw [Char.toNat_ofNat] at hcapital
    have hbounds := List.all_eq_true.1
      (List.all_eq_true.1 hapart _ (List.mem_map_of_mem hrow))
      _ List.mem_cons_self
    simp only [Bool.or_eq_true, decide_eq_true_eq] at hbounds
    split at hcapital <;> omega

end Rows

section Texts

variable {c : Char} {t : List Char}

theorem not_isUpper_of_mem_lowerLetter
    {d : Char}
    (hd : d ∈ lowerLetter c) :
    d.isUpper = false := by
  unfold lowerLetter at hd
  split at hd
  next =>
    rw [List.mem_singleton.1 hd]
    exact Char.isUpper_toLower_eq_false c
  next hascii =>
    split at hd
    next =>
      have hdotted : ['i', '\u0307'].all (!·.isUpper) = true := by decide
      simpa using List.all_eq_true.1 hdotted d hd
    next =>
      rw [List.mem_singleton.1 hd]
      apply not_isUpper_mapRows (by decide +kernel)
      rw [Bool.eq_false_iff]
      intro hupper
      have hcapital := isUpper_iff.1 hupper
      omega

theorem not_isUpper_lowerSigma (before after : List Char) :
    (lowerSigma before after).isUpper = false := by
  unfold lowerSigma
  split <;> decide

theorem not_isUpper_of_mem_lowercaseFrom
    {before : List Char} {d : Char}
    (hd : d ∈ lowercaseFrom before t) :
    d.isUpper = false := by
  induction t generalizing before with
  | nil => cases hd
  | cons c t ih =>
      rw [lowercaseFrom, List.mem_append] at hd
      rcases hd with hletter | hrest
      · split at hletter
        · rw [List.mem_singleton.1 hletter]
          exact not_isUpper_lowerSigma before t
        · exact not_isUpper_of_mem_lowerLetter hletter
      · exact ih hrest

theorem not_isUpper_of_mem_lowercase
    {d : Char}
    (hd : d ∈ lowercase t) :
    d.isUpper = false :=
  not_isUpper_of_mem_lowercaseFrom hd

theorem map_toLower_eq_of_map_toUpper_eq
    {u : List Char}
    (h : t.map Char.toUpper = u.map Char.toUpper) :
    t.map Char.toLower = u.map Char.toLower := by
  have hlowered := congrArg (List.map Char.toLower) h
  simpa [Function.comp_def, Char.toLower_toUpper_eq_toLower] using hlowered

end Texts

end Resemblance.Text
