import Mathlib.Algebra.BigOperators.Intervals
import Resemblance.Comparison.Run
import Resemblance.Proofs.Measure.Cosine

/-!
# The naive comparison

Two nested loops over the positions score each pair from the tokens of its two
files alone and keep it when one of the three scores reaches the threshold.
Frequency tables made in advance, flattened texts stored with the files, the
list of pairs and tasks side by side change nothing in the outcome.
-/

namespace Resemblance

section Positions

theorem map_val_finRange (n : Nat) :
    (List.finRange n).map Fin.val = List.range n := by
  apply List.ext_getElem
  · simp
  · intro k hk hk'
    simp

theorem filter_lt_range (i n : Nat) :
    (List.range n).filter (i < ·) = List.range' (i + 1) (n - (i + 1)) := by
  induction n with
  | zero =>
      rw [Nat.zero_sub, List.range_zero, List.filter_nil, List.range'_zero]
  | succ n ih =>
      rw [List.range_succ, List.filter_append, ih]
      by_cases hin : i < n
      · have hcount : n + 1 - (i + 1) = n - (i + 1) + 1 := by omega
        have hlast : i + 1 + (n - (i + 1)) = n := by omega
        rw [hcount, List.range'_1_concat, hlast]
        simp [hin]
      · have hnone : n - (i + 1) = 0 := by omega
        have hnone' : n + 1 - (i + 1) = 0 := by omega
        simp [hin, hnone, hnone']

/-- Positions with a later second one, as they lie below the length of a
list. -/
theorem pairIndices_eq (n : Nat) :
    pairIndices n =
      (List.finRange n).flatMap fun i =>
        ((List.finRange n).filter (i < ·)).map fun j => (i.val, j.val) := by
  unfold pairIndices
  rw [← map_val_finRange, List.flatMap_map]
  congr 1
  funext i
  rw [← filter_lt_range, ← map_val_finRange, List.filter_map, List.map_map]
  rfl

theorem length_pairIndices (n : Nat) :
    (pairIndices n).length = pairCount n := by
  have hrows : ∀ i ∈ Finset.range n, n - (i + 1) = n - 1 - i := by
    intro i _
    omega
  calc (pairIndices n).length
      = ((List.range n).map fun i => n - (i + 1)).sum := by
        simp [pairIndices, List.length_flatMap]
    _ = ∑ i ∈ Finset.range n, (n - (i + 1)) := rfl
    _ = ∑ i ∈ Finset.range n, i := by
        rw [Finset.sum_congr rfl hrows, Finset.sum_range_reflect fun i => i]
    _ = pairCount n := Finset.sum_range_id n

end Positions

theorem gather_eq_map
    {α β : Type}
    (sideBySide : Bool)
    (f : α → β)
    (xs : List α) :
    gather sideBySide f xs = xs.map f := by
  cases sideBySide with
  | false => rfl
  | true =>
      simp only [gather, if_true, List.map_map]
      rfl

theorem ComparisonSettings.inUnit_threshold
    {s : ComparisonSettings}
    (hvalid : s.fault? = none) :
    inUnit s.threshold = true := by
  unfold fault? at hvalid
  split_ifs at hvalid with hversion hthreshold hprecision
  simpa using hthreshold

theorem ComparisonSettings.isNaN_threshold
    {s : ComparisonSettings}
    (hvalid : s.fault? = none) :
    s.threshold.isNaN = false := by
  have hunit := inUnit_threshold hvalid
  simp only [inUnit, Bool.and_eq_true, decide_eq_true_eq] at hunit
  exact ((Score.le_iff _ _).1 hunit.1).2.1

namespace Comparison

/-- The unrounded scores of two files, measured from their tokens. -/
def direct (a b : TokenizedFile) : Comparison where
  fileA := a.id
  fileB := b.id
  cosine := Resemblance.cosine a.terms b.terms
  jaccard := Resemblance.jaccard a.terms b.terms
  levenshtein := editRatio (Token.flatten a.tokens) (Token.flatten b.tokens)

def Reaches (c : Comparison) (threshold : Float) : Prop :=
  threshold ≤ c.cosine ∨ threshold ≤ c.jaccard ∨ threshold ≤ c.levenshtein

instance
    (c : Comparison) (threshold : Float) : Decidable (c.Reaches threshold) :=
  inferInstanceAs (Decidable (_ ∨ _ ∨ _))

/-- What two files contribute, from nothing but themselves. -/
def entry
    (threshold : Float) (places : Nat) (a b : TokenizedFile) :
    Option Comparison :=
  let cosine := Resemblance.cosine a.terms b.terms
  let jaccard := Resemblance.jaccard a.terms b.terms
  let ratio := editRatio (Token.flatten a.tokens) (Token.flatten b.tokens)
  if threshold ≤ cosine ∨ threshold ≤ jaccard ∨ threshold ≤ ratio then
    some
      { fileA := a.id
        fileB := b.id
        cosine := Decimal.roundTo cosine places
        jaccard := Decimal.roundTo jaccard places
        levenshtein := Decimal.roundTo ratio places }
  else none

theorem entry_eq
    (threshold : Float)
    (places : Nat)
    (a b : TokenizedFile) :
    entry threshold places a b =
      if (direct a b).Reaches threshold then
        some ((direct a b).rounded places)
      else none :=
  rfl

theorem entry_eq_some_iff
    {threshold : Float} {places : Nat} {a b : TokenizedFile} {c : Comparison} :
    entry threshold places a b = some c ↔
      (direct a b).Reaches threshold ∧ (direct a b).rounded places = c := by
  rw [entry_eq]
  by_cases hreaches : (direct a b).Reaches threshold
  · rw [if_pos hreaches, Option.some.injEq, and_iff_right hreaches]
  · simp only [hreaches, if_false, false_and, reduceCtorEq]

def naive
    (threshold : Float) (places : Nat) (files : List TokenizedFile) :
    List Comparison :=
  (List.finRange files.length).flatMap fun i =>
    ((List.finRange files.length).filter (i < ·)).filterMap fun j =>
      entry threshold places files[i] files[j]

theorem unrounded_frequency (a b : TokenizedFile) :
    unrounded a b a.frequency b.frequency = direct a b := by
  simp only [unrounded, direct, TokenizedFile.frequency,
    cosine_eq_cosine_ofTerms, a.flat_eq, b.flat_eq]

theorem le_maxScore_iff
    {c : Comparison}
    (hcosine : c.cosine.isNaN = false)
    (threshold : Float) :
    threshold ≤ c.maxScore ↔ c.Reaches threshold := by
  unfold maxScore Reaches
  rw [Score.le_larger_iff (Score.isNaN_larger hcosine _),
    Score.le_larger_iff hcosine, or_assoc]

theorem isNaN_maxScore
    {c : Comparison}
    (hcosine : c.cosine.isNaN = false) :
    c.maxScore.isNaN = false :=
  Score.isNaN_larger (Score.isNaN_larger hcosine _) _

theorem keep?_direct
    {s : ComparisonSettings}
    (hvalid : s.fault? = none)
    (a b : TokenizedFile) :
    keep? s (direct a b) = entry s.threshold s.precision a b := by
  have hcosine : (direct a b).cosine.isNaN = false := isNaN_cosine _ _
  have hkept : ¬ (direct a b).maxScore < s.threshold ↔
      (direct a b).Reaches s.threshold := by
    rw [Score.not_lt_iff (isNaN_maxScore hcosine)
      (ComparisonSettings.isNaN_threshold hvalid)]
    exact le_maxScore_iff hcosine s.threshold
  rw [entry_eq]
  unfold keep?
  by_cases hreaches : (direct a b).Reaches s.threshold
  · rw [if_neg (hkept.2 hreaches), if_pos hreaches]
  · rw [if_pos (Decidable.not_not.1 fun hlow => hreaches (hkept.1 hlow)),
      if_neg hreaches]

theorem scorePair_eq_entry
    {s : ComparisonSettings}
    (hvalid : s.fault? = none)
    (files : List TokenizedFile)
    (i j : Fin files.length) :
    scorePair s files.toArray (files.map (·.frequency)).toArray i j =
      entry s.threshold s.precision files[i] files[j] := by
  rw [← keep?_direct hvalid, ← unrounded_frequency]
  simp [scorePair]

theorem retained_eq_naive
    {s : ComparisonSettings}
    (hvalid : s.fault? = none)
    (files : List TokenizedFile) :
    retained s files = naive s.threshold s.precision files := by
  simp only [retained, naive, gather_eq_map, List.filterMap_map, pairIndices_eq,
    List.filterMap_flatMap, Function.comp_def, scorePair_eq_entry hvalid, id]

theorem compareAll_eq_naive
    {s : ComparisonSettings}
    {files : List TokenizedFile}
    (hmany : 2 ≤ files.length)
    (hvalid : s.fault? = none) :
    compareAll s files = .ok (naive s.threshold s.precision files) := by
  unfold compareAll
  rw [if_neg (Nat.not_lt.2 hmany), hvalid, retained_eq_naive hvalid]

section Twins

/-- Three files of one name; the first two share one of their two words, the
last is empty. -/
def namesakes : List TokenizedFile :=
  [["p", "q"], ["r", "p"], []].map fun words =>
    { id := "m.py", language := .python, tokens := words.map .ordinary }

def halfway : ComparisonSettings where
  threshold := 0.5
  precision := 2
  parallel := true

/-- Three files with names of their own; the third shares no word with the
others. -/
def neighbours : List TokenizedFile :=
  [("a.py", ["p", "q", "r"]), ("b.py", ["p", "q", "s"]), ("c.py", ["t"]),
    ("d.py", ["s", "r", "q"])].map fun (name, words) =>
      { id := name, language := .python, tokens := words.map .ordinary }

/-- Two thirds are stored with two places, and no pair of the third file. -/
theorem compareAll_neighbours :
    compareAll halfway neighbours = .ok (naive 0.5 2 neighbours) ∧
      (naive 0.5 2 neighbours).map
          (fun c => (c.fileA, c.fileB, c.cosine, c.jaccard, c.levenshtein)) =
        [("a.py", "b.py", 0.67, 0.5, 0.8), ("a.py", "d.py", 0.67, 0.5, 0.4),
          ("b.py", "d.py", 0.67, 0.5, 0.4)] :=
  ⟨compareAll_eq_naive (by decide) (by decide), by decide +kernel⟩

end Twins

end Comparison

end Resemblance
