import Mathlib.Data.List.FinRange
import Resemblance.Proofs.Comparison.Naive

/-!
# The positions behind a comparison

Files may share their names, so a comparison does not tell which two files it
is about.  Here each kept comparison is listed with the two positions it comes
from; forgetting the positions gives the outcome of a run.
-/

namespace Resemblance.Comparison

/-- A kept comparison of the files at two positions of a list. -/
structure Located (n : Nat) where
  first : Fin n
  second : Fin n
  comparison : Comparison

def located
    (s : ComparisonSettings) (files : List TokenizedFile) :
    List (Located files.length) :=
  (List.finRange files.length).flatMap fun i =>
    ((List.finRange files.length).filter (i < ·)).filterMap fun j =>
      (scorePair s files.toArray (files.map (·.frequency)).toArray
        i.val j.val).map (Located.mk i j)

/-- The three stored scores. -/
def scores (c : Comparison) : Float × Float × Float :=
  (c.cosine, c.jaccard, c.levenshtein)

variable {s : ComparisonSettings} {files : List TokenizedFile}

theorem located_eq
    (hvalid : s.fault? = none)
    (files : List TokenizedFile) :
    located s files =
      (List.finRange files.length).flatMap fun i =>
        ((List.finRange files.length).filter (i < ·)).filterMap fun j =>
          (entry s.threshold s.precision (files.get i) (files.get j)).map
            (Located.mk i j) := by
  simp only [located, scorePair_eq_entry hvalid]
  rfl

theorem retained_eq_located
    (hvalid : s.fault? = none)
    (files : List TokenizedFile) :
    retained s files = (located s files).map (·.comparison) := by
  have hforget : ∀ (i j : Fin files.length) (kept : Option Comparison),
      (kept.map (Located.mk i j)).map (·.comparison) = kept := by
    intro i j kept
    cases kept <;> rfl
  rw [retained_eq_naive hvalid, located_eq hvalid, naive]
  simp only [List.map_flatMap, List.map_filterMap, hforget]
  rfl

theorem compareAll_eq_located
    (hmany : 2 ≤ files.length)
    (hvalid : s.fault? = none) :
    compareAll s files = .ok ((located s files).map (·.comparison)) := by
  unfold compareAll
  rw [if_neg (Nat.not_lt.2 hmany), hvalid, retained_eq_located hvalid]

theorem mem_located_iff
    (hvalid : s.fault? = none)
    (c : Located files.length) :
    c ∈ located s files ↔
      c.first < c.second ∧
        entry s.threshold s.precision files[c.first] files[c.second] =
          some c.comparison := by
  obtain ⟨i, j, kept⟩ := c
  simp only [located_eq hvalid, List.mem_flatMap, List.mem_filterMap,
    List.mem_filter, List.mem_finRange, true_and, decide_eq_true_eq,
    Option.map_eq_some_iff, Located.mk.injEq]
  constructor
  · rintro ⟨i, j, hij, kept, hentry, rfl, rfl, rfl⟩
    exact ⟨hij, hentry⟩
  · rintro ⟨hij, hentry⟩
    exact ⟨i, j, hij, kept, hentry, rfl, rfl, rfl⟩

end Resemblance.Comparison
