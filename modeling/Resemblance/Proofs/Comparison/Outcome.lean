import Resemblance.Proofs.Comparison.Positions

/-!
# Outcomes of a comparison

A comparison has one of three outcomes, and which one it is can be read off the
number of files and the settings alone: too few files before anything else,
then a fault of the settings, then the kept pairs.
-/

namespace Resemblance.Comparison

variable {s : ComparisonSettings} {files : List TokenizedFile}

theorem compareAll_eq_ok_iff {results : List Comparison} :
    compareAll s files = .ok results ↔
      2 ≤ files.length ∧ s.fault? = none ∧ results = retained s files := by
  unfold compareAll
  by_cases hfew : files.length < 2
  · simp [hfew, Nat.not_le.2 hfew]
  · cases hfault : s.fault? with
    | some fault => simp [hfew]
    | none => simp [hfew, Nat.not_lt.1 hfew, eq_comm]

theorem exists_compareAll_eq_ok_iff :
    (∃ results, compareAll s files = .ok results) ↔
      2 ≤ files.length ∧ s.fault? = none := by
  constructor
  · rintro ⟨results, hresults⟩
    obtain ⟨hmany, hvalid, _⟩ := compareAll_eq_ok_iff.1 hresults
    exact ⟨hmany, hvalid⟩
  · rintro ⟨hmany, hvalid⟩
    exact ⟨_, compareAll_eq_ok_iff.2 ⟨hmany, hvalid, rfl⟩⟩

theorem compareAll_eq_tooFewFiles_iff {found : Nat} :
    compareAll s files = .error (.tooFewFiles found) ↔
      files.length < 2 ∧ found = files.length := by
  unfold compareAll
  by_cases hfew : files.length < 2
  · simp [hfew, eq_comm]
  · cases hfault : s.fault? <;> simp [hfew]

theorem compareAll_eq_invalidSettings_iff {fault : ComparisonSettings.Fault} :
    compareAll s files = .error (.invalidSettings fault) ↔
      2 ≤ files.length ∧ s.fault? = some fault := by
  unfold compareAll
  by_cases hfew : files.length < 2
  · simp [hfew, Nat.not_le.2 hfew]
  · cases hfault : s.fault? <;> simp [hfew, Nat.not_lt.1 hfew]

theorem names_of_entry
    {threshold : Float} {places : Nat} {a b : TokenizedFile} {c : Comparison}
    (hentry : entry threshold places a b = some c) :
    c.fileA = a.id ∧ c.fileB = b.id := by
  obtain ⟨-, rfl⟩ := entry_eq_some_iff.1 hentry
  exact ⟨rfl, rfl⟩

theorem exists_entry_of_mem_retained
    (hvalid : s.fault? = none)
    {c : Comparison}
    (hc : c ∈ retained s files) :
    ∃ i j : Fin files.length,
      i < j ∧ entry s.threshold s.precision (files.get i) (files.get j) =
        some c := by
  rw [retained_eq_located hvalid, List.mem_map] at hc
  obtain ⟨⟨i, j, kept⟩, hkept, rfl⟩ := hc
  exact ⟨i, j, (mem_located_iff hvalid _).1 hkept⟩

/-- A kept comparison bears the names of two files, the earlier one first. -/
theorem names_of_mem_retained
    (hvalid : s.fault? = none)
    {c : Comparison}
    (hc : c ∈ retained s files) :
    ∃ i j : Fin files.length,
      i < j ∧ c.fileA = (files.get i).id ∧ c.fileB = (files.get j).id := by
  obtain ⟨i, j, hij, hentry⟩ := exists_entry_of_mem_retained hvalid hc
  exact ⟨i, j, hij, names_of_entry hentry⟩

end Resemblance.Comparison
