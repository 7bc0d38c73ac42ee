import Resemblance.Proofs.Measure.UnitInterval

/-!
# The index of two sets of terms

What is counted are the distinct terms of both sequences and of their union, so
neither order nor repetition of terms matters.  The quotient is zero only for
sequences without a common term, and one only for sequences with the same terms
as long as the counts are exact doubles.
-/

namespace Resemblance

open Decimal

namespace StringSet

variable (a b : List String)

theorem interSize_ofList :
    (ofList a).interSize (ofList b) = (a.toFinset ∩ b.toFinset).card := by
  rw [interSize_eq_card, toFinset_ofList, toFinset_ofList]

/-- The common terms are counted once in the size of the union. -/
theorem size_add_size_ofList :
    (ofList a).size + (ofList b).size =
      (a ++ b).toFinset.card + (ofList a).interSize (ofList b) := by
  rw [size_ofList, size_ofList, interSize_ofList, List.toFinset_append,
    Finset.card_union_add_card_inter]

theorem interSize_ofList_le :
    (ofList a).interSize (ofList b) ≤ (a ++ b).toFinset.card := by
  rw [interSize_ofList, List.toFinset_append]
  exact Finset.card_le_card Finset.inter_subset_union

end StringSet

theorem card_toFinset_append_pos
    {a : List String}
    (ha : a ≠ [])
    (b : List String) :
    0 < (a ++ b).toFinset.card := by
  rw [Finset.card_pos, List.toFinset_nonempty_iff]
  exact List.append_ne_nil_of_left_ne_nil ha b

theorem jaccard_eq_div
    {a b : List String}
    (ha : a ≠ [])
    (hb : b ≠ []) :
    jaccard a b =
      nearestNat (a.toFinset ∩ b.toFinset).card /
        nearestNat (a ++ b).toFinset.card := by
  have hunion : (StringSet.ofList a).size + (StringSet.ofList b).size -
      (StringSet.ofList a).interSize (StringSet.ofList b) =
        (a ++ b).toFinset.card := by
    rw [StringSet.size_add_size_ofList, Nat.add_sub_cancel]
  have hpos := card_toFinset_append_pos ha b
  unfold jaccard StringSet.jaccard
  simp only [List.isEmpty_eq_false_iff.2 ha, List.isEmpty_eq_false_iff.2 hb,
    Bool.or_self, Bool.false_eq_true, if_false, hunion, hpos.ne']
  rw [StringSet.interSize_ofList]

theorem ne_nil_of_mem_iff
    {a a' : List String}
    (ha : a ≠ [])
    (hmem : ∀ w, w ∈ a' ↔ w ∈ a) :
    a' ≠ [] := by
  rcases List.exists_mem_of_ne_nil a ha with ⟨w, hw⟩
  exact List.ne_nil_of_mem ((hmem w).2 hw)

theorem jaccard_eq_of_mem_iff
    {a a' b b' : List String}
    (ha : a ≠ [])
    (hb : b ≠ [])
    (hmem : ∀ w, w ∈ a' ↔ w ∈ a)
    (hmem' : ∀ w, w ∈ b' ↔ w ∈ b) :
    jaccard a' b' = jaccard a b := by
  have hleft : a'.toFinset = a.toFinset := by
    ext w
    simp [hmem w]
  have hright : b'.toFinset = b.toFinset := by
    ext w
    simp [hmem' w]
  rw [jaccard_eq_div (ne_nil_of_mem_iff ha hmem) (ne_nil_of_mem_iff hb hmem'),
    jaccard_eq_div ha hb, List.toFinset_append, List.toFinset_append, hleft,
    hright]

/-- What is counted, what the counts do not depend on, and when the index is
zero or one.  No sequence has `2 ^ 64` terms. -/
theorem jaccard_index
    {a b : List String}
    (ha : a ≠ [])
    (hb : b ≠ []) :
    ((StringSet.ofList a).interSize (StringSet.ofList b) =
      (a.toFinset ∩ b.toFinset).card ∧
      (StringSet.ofList a).interSize (StringSet.ofList b) =
        (Frequency.ofTerms a).shared (Frequency.ofTerms b)) ∧
    ((StringSet.ofList a).interSize (StringSet.ofList b) ≤
        (StringSet.ofList a).size + (StringSet.ofList b).size ∧
      (StringSet.ofList a).size + (StringSet.ofList b).size -
        (StringSet.ofList a).interSize (StringSet.ofList b) =
          (a ++ b).toFinset.card ∧
      1 ≤ (a ++ b).toFinset.card) ∧
    jaccard a b =
      nearestNat (a.toFinset ∩ b.toFinset).card /
        nearestNat (a ++ b).toFinset.card ∧
    (∀ a' b', (∀ w, w ∈ a' ↔ w ∈ a) → (∀ w, w ∈ b' ↔ w ∈ b) →
      jaccard a' b' = jaccard a b ∧ jaccard b' a' = jaccard a b) ∧
    (a.length < 2 ^ 64 → b.length < 2 ^ 64 →
      (jaccard a b = 0.0 ↔ a.Disjoint b) ∧
        ((jaccard a b == 0.0) = true ↔ a.Disjoint b)) ∧
    ((Frequency.ofTerms a).dot (Frequency.ofTerms b) = 0 ↔ a.Disjoint b) ∧
    ((a ++ b).toFinset.card ≤ 2 ^ 53 →
      (jaccard a b = 1.0 ↔ a.toFinset = b.toFinset)) := by
  have hpos := card_toFinset_append_pos ha b
  have hinter := StringSet.interSize_ofList a b
  have hsizes := StringSet.size_add_size_ofList a b
  have hle := StringSet.interSize_ofList_le a b
  rw [hinter] at hle
  refine ⟨⟨hinter, hinter.trans (Frequency.shared_ofTerms a b).symm⟩,
    ⟨by omega, by omega, hpos⟩, jaccard_eq_div ha hb, ?_, ?_,
    Frequency.dot_ofTerms_eq_zero_iff, ?_⟩
  · intro a' b' hmem hmem'
    have hsame := jaccard_eq_of_mem_iff ha hb hmem hmem'
    exact ⟨hsame, (jaccard_comm b' a').trans hsame⟩
  · intro ha' hb'
    have hlength := (a ++ b).toFinset_card_le
    rw [List.length_append] at hlength
    have hsmall : (a ++ b).toFinset.card < 2 ^ 65 := by omega
    have hnone : (a.toFinset ∩ b.toFinset).card = 0 ↔ a.Disjoint b := by
      rw [Finset.card_eq_zero, ← Finset.disjoint_iff_inter_eq_empty,
        List.disjoint_toFinset_iff_disjoint]
    rw [jaccard_eq_div ha hb, ← hnone]
    exact ⟨nearestNat_div_eq_zero_iff hpos hle hsmall,
      nearestNat_div_beq_zero_iff hpos hle hsmall⟩
  · intro hexact
    rw [jaccard_eq_div ha hb, nearestNat_div_eq_one_iff hpos hle hexact,
      List.toFinset_append]
    constructor
    · intro hcard
      exact inf_eq_sup.1
        (Finset.eq_of_subset_of_card_le Finset.inter_subset_union hcard.ge)
    · intro hsame
      rw [hsame, Finset.inter_self, Finset.union_self]

theorem jaccard_index_of_repeated :
    ["a", "a", "a", "b"] ≠ [] ∧ ["a", "c", "c"] ≠ [] ∧
    ["a", "a", "a", "b"].length < 2 ^ 64 ∧ ["a", "c", "c"].length < 2 ^ 64 ∧
    (["a", "a", "a", "b"] ++ ["a", "c", "c"]).toFinset.card ≤ 2 ^ 53 ∧
    jaccard ["a", "a", "a", "b"] ["a", "c", "c"] = nearestNat 1 / nearestNat 3 ∧
    jaccard ["c", "a"] ["b", "a"] =
      jaccard ["a", "a", "a", "b"] ["a", "c", "c"] ∧
    jaccard ["a", "a", "a", "b"] ["a", "c", "c"] ≠ 0.0 ∧
    jaccard ["a", "a", "a", "b"] ["a", "c", "c"] ≠ 1.0 := by
  have ha : ["a", "a", "a", "b"] ≠ [] := by simp
  have hb : ["a", "c", "c"] ≠ [] := by simp
  have ha' : ["a", "a", "a", "b"].length < 2 ^ 64 := by simp
  have hb' : ["a", "c", "c"].length < 2 ^ 64 := by simp
  have hunion :
      (["a", "a", "a", "b"] ++ ["a", "c", "c"]).toFinset.card = 3 := by decide
  have hexact :
      (["a", "a", "a", "b"] ++ ["a", "c", "c"]).toFinset.card ≤ 2 ^ 53 := by
    rw [hunion]
    norm_num
  rcases jaccard_index ha hb with ⟨-, -, hquotient, hsame, hzero, -, hone⟩
  refine ⟨ha, hb, ha', hb', hexact, ?_, ?_, ?_, ?_⟩
  · rw [hquotient, hunion]
    rfl
  · exact (hsame ["b", "a"] ["c", "a"] (by simp [or_comm])
      (by simp [or_comm])).2
  · intro hnone
    have hdisjoint := (hzero ha' hb').1.1 hnone
    simp at hdisjoint
  · intro hwhole
    have hequal := (hone hexact).1 hwhole
    revert hequal
    decide

end Resemblance
