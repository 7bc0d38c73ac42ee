import Resemblance.Comparison.Run
import Resemblance.Proofs.Measure.Jaccard
import Resemblance.Tally

/-!
# Tallies as multisets

The table of a sequence has a row for each of its terms and no other, and the
numbers in the rows add up to the length.  Two sequences have one tally exactly
when one of them is a permutation of the other, so whatever is computed from
tables or sets of terms does not depend on the order of the terms.
-/

namespace Resemblance

namespace Frequency

theorem mem_counts_ofTerms
    {ws : List String} {w : String} {n : ℕ} :
    (w, n) ∈ (ofTerms ws).counts ↔ ws.count w = n ∧ 0 < n := by
  rw [← get_ofTerms]
  constructor
  · intro hrow
    exact ⟨get_of_mem hrow, pos_of_mem_ofTerms ws _ hrow⟩
  · rintro ⟨rfl, hpos⟩
    have hlisted : w ∈ (ofTerms ws).terms := by
      by_contra habsent
      exact hpos.ne' (get_eq_zero habsent)
    simp only [terms, List.mem_toFinset, List.mem_map] at hlisted
    rcases hlisted with ⟨⟨v, n⟩, hrow, rfl⟩
    rwa [get_of_mem hrow]

theorem nodup_counts (f : Frequency) : f.counts.Nodup := f.nodup_keys.of_map _

theorem counts_injective : Function.Injective counts := by
  rintro ⟨rows, hrows⟩ ⟨rows', hrows'⟩ rfl
  rfl

/-- A permuted sequence has the same rows, and only one order of them is
ascending. -/
theorem ofTerms_eq_of_perm
    {a b : List String}
    (hperm : a.Perm b) :
    ofTerms a = ofTerms b := by
  have hrows : (ofTerms a).counts.Perm (ofTerms b).counts := by
    rw [List.perm_ext_iff_of_nodup (nodup_counts _) (nodup_counts _)]
    rintro ⟨w, n⟩
    rw [mem_counts_ofTerms, mem_counts_ofTerms, hperm.count_eq]
  have hordered : ∀ p q : String × ℕ, p.1 < q.1 → q.1 < p.1 →
      p = q := fun p q hpq hqp =>
    absurd (String.lt_trans hpq hqp) (String.lt_irrefl p.1)
  apply counts_injective
  exact hrows.eq_of_pairwise (fun p q _ _ => hordered p q) (ofTerms a).ascending
    (ofTerms b).ascending

theorem size_ofTerms (ws : List String) :
    (ofTerms ws).size = ws.toFinset.card := by
  rw [← terms_ofTerms, terms, List.toFinset_card_of_nodup (nodup_keys _),
    List.length_map, size]

theorem total_eq_sum (f : Frequency) : f.total = ∑ w ∈ f.terms, f.get w := by
  have hrows := foldr_counts f fun _ => 1
  simp only [Nat.mul_one] at hrows
  exact hrows

theorem total_ofTerms (ws : List String) : (ofTerms ws).total = ws.length := by
  rw [total_eq_sum, terms_ofTerms]
  simp only [get_ofTerms, List.sum_toFinset_count_eq_length]

end Frequency

theorem Tally.ofTerms_eq_iff_perm {a b : List String} :
    Tally.ofTerms a = Tally.ofTerms b ↔ a.Perm b := by
  constructor
  · intro hequal
    have htables : Frequency.ofTerms a = Frequency.ofTerms b :=
      congrArg frequency hequal
    rw [List.perm_iff_count]
    intro w
    rw [← Frequency.get_ofTerms, ← Frequency.get_ofTerms, htables]
  · intro hperm
    rw [ofTerms, ofTerms, Frequency.ofTerms_eq_of_perm hperm, hperm.length_eq]

section Keys

variable {κ : Type} [BEq κ] [Hashable κ] (key : String → κ)

theorem keyCounts_concat
    (ws : List String)
    (w : String) :
    keyCounts key (ws ++ [w]) =
      (keyCounts key ws).alter (key w) fun n => some (n.getD 0 + 1) := by
  rw [keyCounts, List.foldl_append]
  rfl

variable [LawfulBEq κ]

/-- Only keys of counted terms are in the map. -/
theorem getElem?_keyCounts
    (ws : List String)
    (k : κ) :
    (keyCounts key ws)[k]? =
      if (ws.map key).count k = 0 then none
      else some ((ws.map key).count k) := by
  induction ws using List.reverseRecOn with
  | nil => simp [keyCounts]
  | append_singleton ws w ih =>
      rw [keyCounts_concat, Std.HashMap.getElem?_alter, ih, List.map_append,
        List.count_append, List.map_singleton, List.count_singleton]
      by_cases hk : (key w == k) = true
      · rw [beq_iff_eq.1 hk, ih]
        by_cases hnew : (ws.map key).count k = 0
        · simp [hnew]
        · simp [hnew]
      · simp [hk]

theorem mem_toList_keyCounts
    {ws : List String} {k : κ} {n : ℕ} :
    (k, n) ∈ (keyCounts key ws).toList ↔ (ws.map key).count k = n ∧ 0 < n := by
  rw [Std.HashMap.mem_toList_iff_getElem?_eq_some, getElem?_keyCounts]
  by_cases hnone : (ws.map key).count k = 0
  · rw [if_pos hnone]
    simp only [reduceCtorEq, false_iff]
    omega
  · rw [if_neg hnone, Option.some.injEq]
    omega

theorem nodup_toList_keyCounts (ws : List String) :
    (keyCounts key ws).toList.Nodup := by
  apply Std.HashMap.distinct_keys_toList.imp
  rintro ⟨k, n⟩ ⟨l, m⟩ hdistinct hequal
  simp [(Prod.mk.inj hequal).1] at hdistinct

/-- Keys that tell terms apart give the rows of the table. -/
theorem toList_keyCounts_perm
    (hkey : Function.Injective key)
    (ws : List String) :
    (keyCounts key ws).toList.Perm
      ((Frequency.ofTerms ws).counts.map (Prod.map key id)) := by
  have hrows : ((Frequency.ofTerms ws).counts.map (Prod.map key id)).Nodup :=
    (Frequency.nodup_counts _).map (hkey.prodMap Function.injective_id)
  rw [List.perm_ext_iff_of_nodup (nodup_toList_keyCounts key ws) hrows]
  rintro ⟨k, n⟩
  rw [mem_toList_keyCounts, List.mem_map]
  constructor
  · rintro ⟨hcount, hpos⟩
    obtain ⟨w, -, rfl⟩ := List.mem_map.1 (List.count_pos_iff.1 (hcount ▸ hpos))
    rw [List.count_map_of_injective ws key hkey] at hcount
    exact ⟨(w, n), Frequency.mem_counts_ofTerms.2 ⟨hcount, hpos⟩, rfl⟩
  · rintro ⟨⟨w, m⟩, hrow, hequal⟩
    obtain ⟨rfl, rfl⟩ := Prod.mk.inj hequal
    rw [List.count_map_of_injective ws key hkey]
    exact Frequency.mem_counts_ofTerms.1 hrow

end Keys

theorem jaccard_eq_zero_of_nil
    {a b : List String}
    (hempty : a = [] ∨ b = []) :
    jaccard a b = 0.0 := by
  have hskipped : (a.isEmpty || b.isEmpty) = true := by
    simpa using hempty
  rw [jaccard, if_pos hskipped]

theorem jaccard_eq_of_perm
    {a a' b b' : List String}
    (ha : a'.Perm a)
    (hb : b'.Perm b) :
    jaccard a' b' = jaccard a b := by
  by_cases hempty : a = [] ∨ b = []
  · have hempty' : a' = [] ∨ b' = [] :=
      hempty.imp (fun hnil => (hnil ▸ ha).eq_nil) fun hnil => (hnil ▸ hb).eq_nil
    rw [jaccard_eq_zero_of_nil hempty, jaccard_eq_zero_of_nil hempty']
  · rw [not_or] at hempty
    exact jaccard_eq_of_mem_iff hempty.1 hempty.2
      (fun w => ha.mem_iff) fun w => hb.mem_iff

open Comparison

/-- What is counted, that the tally is the multiset of the sequence, and that
the measures of terms see nothing else of a file. -/
theorem Tally.is_multiset :
    (∀ ws : List String,
      (∀ w, (ofTerms ws).frequency.get w = ws.count w) ∧
      (ofTerms ws).frequency.size = ws.toFinset.card ∧
      (ofTerms ws).frequency.total = (ofTerms ws).total ∧
      (ofTerms ws).total = ws.length ∧
      ∀ (κ : Type) [BEq κ] [LawfulBEq κ] [Hashable κ] (key : String → κ),
        Function.Injective key →
        (keyCounts key ws).toList.Perm
          ((ofTerms ws).frequency.counts.map (Prod.map key id))) ∧
    (∀ a b : List String, ofTerms a = ofTerms b ↔ a.Perm b) ∧
    ∀ f f' g g' : TokenizedFile, f'.tokens.Perm f.tokens →
      g'.tokens.Perm g.tokens →
      (unrounded f' g' f'.frequency g'.frequency).cosine =
        (unrounded f g f.frequency g.frequency).cosine ∧
      (unrounded f' g' f'.frequency g'.frequency).jaccard =
        (unrounded f g f.frequency g.frequency).jaccard := by
  refine ⟨fun ws => ⟨?_, ?_, ?_, rfl, ?_⟩, fun a b => ofTerms_eq_iff_perm, ?_⟩
  · exact Frequency.get_ofTerms ws
  · exact Frequency.size_ofTerms ws
  · exact Frequency.total_ofTerms ws
  · intro κ _ _ _ key hkey
    exact toList_keyCounts_perm key hkey ws
  · intro f f' g g' hf hg
    have hterms : f'.terms.Perm f.terms := hf.map _
    have hterms' : g'.terms.Perm g.terms := hg.map _
    have htable : f'.frequency = f.frequency :=
      Frequency.ofTerms_eq_of_perm hterms
    have htable' : g'.frequency = g.frequency :=
      Frequency.ofTerms_eq_of_perm hterms'
    simp only [unrounded, htable, htable', jaccard_eq_of_perm hterms hterms',
      and_self]

/-- A file whose tokens are the given words. -/
def fileOfWords (words : List String) : TokenizedFile :=
  ⟨"m.py", .python, words.map Token.mk, Token.flatten (words.map Token.mk), rfl⟩

theorem Tally.is_multiset_of_shuffled :
    Function.Injective (id : String → String) ∧
    (fileOfWords ["v", "k", "k"]).tokens.Perm
      (fileOfWords ["k", "v", "k"]).tokens ∧
    (keyCounts id ["k", "v", "k"]).toList.Perm [("k", 2), ("v", 1)] ∧
    Tally.ofTerms ["v", "k", "k"] = Tally.ofTerms ["k", "v", "k"] ∧
    Tally.ofTerms ["v", "k"] ≠ Tally.ofTerms ["k", "v", "k"] ∧
    (unrounded (fileOfWords ["v", "k", "k"]) (fileOfWords ["k"])
        (fileOfWords ["v", "k", "k"]).frequency
        (fileOfWords ["k"]).frequency).cosine =
      (unrounded (fileOfWords ["k", "v", "k"]) (fileOfWords ["k"])
        (fileOfWords ["k", "v", "k"]).frequency
        (fileOfWords ["k"]).frequency).cosine := by
  have hkey : Function.Injective (id : String → String) := Function.injective_id
  have hperm :
      (fileOfWords ["v", "k", "k"]).tokens.Perm
        (fileOfWords ["k", "v", "k"]).tokens := by
    decide
  have hrows : (Tally.ofTerms ["k", "v", "k"]).frequency.counts =
      [("k", 2), ("v", 1)] := by
    decide +kernel
  rcases Tally.is_multiset with ⟨hcounts, hequal, hscores⟩
  rcases hcounts ["k", "v", "k"] with ⟨-, -, -, -, hkeys⟩
  refine ⟨hkey, hperm, ?_, (hequal _ _).2 (by decide), ?_,
    (hscores _ _ _ _ hperm (.refl _)).1⟩
  · have hown := hkeys String _ hkey
    rwa [Prod.map_id, List.map_id, hrows] at hown
  · rw [Ne, hequal]
    decide

end Resemblance
