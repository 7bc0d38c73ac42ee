import Mathlib.Data.Sym.Sym2
import Resemblance.Proofs.Comparison.Positions
import Resemblance.Proofs.Measure.Symmetry

/-!
# Files in another order

The positions of two files form an unordered pair.  Every such pair is looked
at once, whatever the order of the files, and its scores do not tell which of
the two files comes first.  A permutation of the files therefore permutes the
pairs and keeps their scores.
-/

namespace Resemblance.Comparison

section UnorderedPairs

variable {n : Nat}

/-- All pairs of two positions, as unordered pairs. -/
def unorderedPairs (n : Nat) : List (Sym2 (Fin n)) :=
  (List.finRange n).flatMap fun i =>
    ((List.finRange n).filter (i < ·)).map fun j => s(i, j)

theorem mem_unorderedPairs_iff (pair : Sym2 (Fin n)) :
    pair ∈ unorderedPairs n ↔ ¬ pair.IsDiag := by
  induction pair using Sym2.ind with
  | _ i j =>
      simp only [unorderedPairs, List.mem_flatMap, List.mem_map,
        List.mem_filter, List.mem_finRange, true_and, decide_eq_true_eq,
        Sym2.mk_isDiag_iff]
      constructor
      · rintro ⟨k, l, hkl, hpair⟩ rfl
        rcases Sym2.eq_iff.1 hpair with ⟨rfl, rfl⟩ | ⟨rfl, rfl⟩ <;>
          exact lt_irrefl _ hkl
      · intro hij
        rcases lt_or_gt_of_ne hij with hlt | hlt
        · exact ⟨i, j, hlt, rfl⟩
        · exact ⟨j, i, hlt, Sym2.eq_swap⟩

theorem nodup_unorderedPairs (n : Nat) : (unorderedPairs n).Nodup := by
  rw [unorderedPairs, List.nodup_flatMap]
  constructor
  · intro i _
    apply List.Nodup.map _ ((List.nodup_finRange n).filter _)
    intro j k hpair
    exact Sym2.congr_right.1 hpair
  · apply (List.nodup_finRange n).imp
    intro i k hik
    rw [Function.onFun, List.disjoint_left]
    intro pair hi hk
    simp only [List.mem_map, List.mem_filter, decide_eq_true_eq] at hi hk
    obtain ⟨j, ⟨-, hij⟩, rfl⟩ := hi
    obtain ⟨l, ⟨-, hkl⟩, hpair⟩ := hk
    rcases Sym2.eq_iff.1 hpair with ⟨rfl, -⟩ | ⟨rfl, rfl⟩
    · exact hik rfl
    · exact lt_asymm hij hkl

theorem perm_unorderedPairs
    {m : Nat}
    (σ : Fin m ≃ Fin n) :
    ((unorderedPairs m).map (Sym2.map σ)).Perm (unorderedPairs n) := by
  rw [List.perm_ext_iff_of_nodup
    ((nodup_unorderedPairs m).map (Sym2.map.injective σ.injective))
    (nodup_unorderedPairs n)]
  intro pair
  rw [List.mem_map, mem_unorderedPairs_iff]
  constructor
  · rintro ⟨origin, horigin, rfl⟩
    rw [mem_unorderedPairs_iff] at horigin
    rwa [Sym2.isDiag_map σ.injective]
  · intro hpair
    refine ⟨pair.map σ.symm, ?_, ?_⟩
    · rwa [mem_unorderedPairs_iff, Sym2.isDiag_map σ.symm.injective]
    · simp [Sym2.map_map]

end UnorderedPairs

section Symmetry

theorem scores_direct_comm (a b : TokenizedFile) :
    (direct a b).scores = (direct b a).scores := by
  simp only [scores, direct]
  rw [cosine_comm, jaccard_comm, editRatio_comm]

theorem reaches_iff_of_scores_eq
    {c d : Comparison}
    (hscores : c.scores = d.scores)
    (threshold : Float) :
    c.Reaches threshold ↔ d.Reaches threshold := by
  simp only [scores, Prod.mk.injEq] at hscores
  obtain ⟨hcosine, hjaccard, hlevenshtein⟩ := hscores
  rw [Reaches, Reaches, hcosine, hjaccard, hlevenshtein]

theorem scores_rounded_of_scores_eq
    {c d : Comparison}
    (hscores : c.scores = d.scores)
    (places : Nat) :
    (c.rounded places).scores = (d.rounded places).scores := by
  simp only [scores, Prod.mk.injEq] at hscores
  obtain ⟨hcosine, hjaccard, hlevenshtein⟩ := hscores
  simp only [scores, rounded, hcosine, hjaccard, hlevenshtein]

theorem map_scores_entry_comm
    (threshold : Float)
    (places : Nat)
    (a b : TokenizedFile) :
    (entry threshold places a b).map scores =
      (entry threshold places b a).map scores := by
  have hdirect := scores_direct_comm a b
  have hreaches := reaches_iff_of_scores_eq hdirect threshold
  rw [entry_eq, entry_eq]
  by_cases hkept : (direct a b).Reaches threshold
  · rw [if_pos hkept, if_pos (hreaches.1 hkept)]
    exact congrArg some (scores_rounded_of_scores_eq hdirect places)
  · rw [if_neg hkept, if_neg (fun hother => hkept (hreaches.2 hother))]

end Symmetry

variable {s : ComparisonSettings}

/-- What an unordered pair of positions contributes, if it is kept. -/
def pairScores
    (s : ComparisonSettings) (files : List TokenizedFile) :
    Sym2 (Fin files.length) → Option (Float × Float × Float) :=
  Sym2.lift
    ⟨fun i j =>
      (entry s.threshold s.precision (files.get i) (files.get j)).map scores,
      fun i j => map_scores_entry_comm _ _ (files.get i) (files.get j)⟩

theorem map_located_eq
    {α : Type}
    (hvalid : s.fault? = none)
    (files : List TokenizedFile)
    (name : Sym2 (Fin files.length) → α) :
    (located s files).map
      (fun c => (name s(c.first, c.second), c.comparison.scores)) =
      (unorderedPairs files.length).filterMap fun pair =>
        (pairScores s files pair).map (name pair, ·) := by
  have hmaps : ∀ (i j : Fin files.length) (kept : Option Comparison),
      ((kept.map (Located.mk i j)).map fun c =>
        (name s(c.first, c.second), c.comparison.scores)) =
        (kept.map scores).map (name s(i, j), ·) := by
    intro i j kept
    cases kept <;> rfl
  rw [located_eq hvalid, unorderedPairs]
  simp only [List.map_flatMap, List.map_filterMap, List.filterMap_flatMap,
    List.filterMap_map, hmaps]
  rfl

theorem pairScores_map
    {files files' : List TokenizedFile}
    (σ : Fin files'.length ≃ Fin files.length)
    (hfiles : ∀ i, files'.get i = files.get (σ i))
    (pair : Sym2 (Fin files'.length)) :
    pairScores s files (pair.map σ) = pairScores s files' pair := by
  induction pair using Sym2.ind with
  | _ i j =>
      simp only [pairScores, Sym2.map_mk, Sym2.lift_mk, hfiles]

theorem compareAll_reordered
    {files files' : List TokenizedFile}
    (hmany : 2 ≤ files.length)
    (hvalid : s.fault? = none)
    (σ : Fin files'.length ≃ Fin files.length)
    (hfiles : ∀ i, files'.get i = files.get (σ i)) :
    compareAll s files = .ok ((located s files).map (·.comparison)) ∧
      compareAll s files' = .ok ((located s files').map (·.comparison)) ∧
      ((located s files').map fun c =>
        (s(σ c.first, σ c.second), c.comparison.scores)).Perm
        ((located s files).map fun c =>
          (s(c.first, c.second), c.comparison.scores)) := by
  have hlength : files'.length = files.length := Fin.equiv_iff_eq.1 ⟨σ⟩
  have hpairs :
      (located s files').map
        (fun c => (s(σ c.first, σ c.second), c.comparison.scores)) =
      ((unorderedPairs files'.length).map (Sym2.map σ)).filterMap fun pair =>
        (pairScores s files pair).map (pair, ·) := by
    rw [List.filterMap_map]
    simp only [Function.comp_def, pairScores_map σ hfiles]
    exact map_located_eq hvalid files' (Sym2.map σ)
  have hpairs' :
      (located s files).map
        (fun c => (s(c.first, c.second), c.comparison.scores)) =
      (unorderedPairs files.length).filterMap fun pair =>
        (pairScores s files pair).map (pair, ·) :=
    map_located_eq hvalid files id
  refine ⟨compareAll_eq_located hmany hvalid,
    compareAll_eq_located (hlength ▸ hmany) hvalid, ?_⟩
  rw [hpairs, hpairs']
  exact (perm_unorderedPairs σ).filterMap _

section Reversed

def reversal (files : List TokenizedFile) :
    Fin files.reverse.length ≃ Fin files.length :=
  (finCongr List.length_reverse).trans Fin.revPerm

theorem get_reverse
    (files : List TokenizedFile)
    (i : Fin files.reverse.length) :
    files.reverse.get i = files.get (reversal files i) := by
  have hrev : (reversal files i).val = files.length - 1 - i.val := by
    simp [reversal, Fin.val_rev]
    omega
  simp only [List.get_eq_getElem, List.getElem_reverse, hrev]

/-- The kept pair of the first two files is the pair of the last two in the
other direction. -/
theorem compareAll_reversed_namesakes :
    compareAll halfway namesakes =
      .ok ((located halfway namesakes).map (·.comparison)) ∧
      compareAll halfway namesakes.reverse =
        .ok ((located halfway namesakes.reverse).map (·.comparison)) ∧
      ((located halfway namesakes.reverse).map fun c =>
        (s(reversal namesakes c.first, reversal namesakes c.second),
          c.comparison.scores)).Perm
        ((located halfway namesakes).map fun c =>
          (s(c.first, c.second), c.comparison.scores)) ∧
      (located halfway namesakes).map (fun c => (c.first.val, c.second.val)) =
        [(0, 1)] ∧
      (located halfway namesakes.reverse).map
        (fun c => (c.first.val, c.second.val)) =
        [(1, 2)] := by
  obtain ⟨hforth, hback, hpairs⟩ :=
    compareAll_reordered (by decide : 2 ≤ namesakes.length)
      (by decide : halfway.fault? = none) (reversal namesakes)
      (get_reverse namesakes)
  exact ⟨hforth, hback, hpairs, by decide +kernel, by decide +kernel⟩

end Reversed

end Resemblance.Comparison
