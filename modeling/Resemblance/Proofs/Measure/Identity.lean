import Resemblance.Proofs.Double.Denotation
import Resemblance.Proofs.Measure.Symmetry

/-!
# A sequence measured against itself

All three measures of a sequence against itself are exactly one.  For the
cosine this rests on the root of a rounded square; the other two divide a whole
number by itself and zero by the length.
-/

namespace Resemblance

section Cosine

theorem Frequency.cosine_self
    {f : Frequency}
    (hpos : 0 < f.squaredNorm)
    (hsmall : f.squaredNorm < 2 ^ 64) :
    f.cosine f = 1.0 := by
  have hone : Score.smaller 1.0 1.0 = 1.0 := by decide +kernel
  simp only [cosine, dot_self, hpos.ne',
    Double.sqrt_nearestNat_mul_self hpos hsmall,
    Double.nearestNat_beq_zero hpos hsmall,
    Double.nearestNat_div_self hpos hsmall, hone, if_false, Bool.false_eq_true]

theorem cosine_self
    {a : List String}
    (hne : a ≠ [])
    (hshort : a.length < 2 ^ 32) :
    cosine a a = 1.0 := by
  rw [cosine_eq_cosine_ofTerms]
  exact Frequency.cosine_self (Frequency.squaredNorm_ofTerms_pos hne)
    (Frequency.squaredNorm_ofTerms_lt hshort)

end Cosine

section Jaccard

theorem StringSet.interSize_self (s : StringSet) : s.interSize s = s.size := by
  rw [interSize_eq_card, Finset.inter_self,
    List.toFinset_card_of_nodup s.nodup_toList]
  rfl

theorem StringSet.toFinset_ofList (ws : List String) :
    (ofList ws).toList.toFinset = ws.toFinset := by
  ext w
  rw [List.mem_toFinset, List.mem_toFinset, ← contains_iff, contains_ofList]

theorem StringSet.size_ofList (ws : List String) :
    (ofList ws).size = ws.toFinset.card := by
  rw [size, ← List.toFinset_card_of_nodup (ofList ws).nodup_toList,
    toFinset_ofList]

theorem StringSet.size_ofList_le (ws : List String) :
    (ofList ws).size ≤ ws.length := by
  rw [size_ofList]
  exact ws.toFinset_card_le

theorem StringSet.jaccard_self
    {s : StringSet}
    (hpos : 0 < s.size)
    (hsmall : s.size < 2 ^ 64) :
    s.jaccard s = 1.0 := by
  simp only [jaccard, interSize_self, Nat.add_sub_cancel, hpos.ne', if_false,
    Double.nearestNat_div_self hpos hsmall]

theorem jaccard_self
    {a : List String}
    (hne : a ≠ [])
    (hshort : a.length < 2 ^ 32) :
    jaccard a a = 1.0 := by
  have hempty : a.isEmpty = false := by simpa using hne
  have hpos : 0 < (StringSet.ofList a).size := by
    rw [StringSet.size_ofList, Finset.card_pos, List.toFinset_nonempty_iff]
    exact hne
  have hsmall : (StringSet.ofList a).size < 2 ^ 64 := by
    calc (StringSet.ofList a).size ≤ a.length := StringSet.size_ofList_le a
      _ < 2 ^ 64 := hshort.trans (by norm_num)
  simp only [jaccard, hempty, Bool.or_self, Bool.false_eq_true, if_false,
    StringSet.jaccard_self hpos hsmall]

end Jaccard

section EditRatio

theorem editRatio_self (a : List Char) : editRatio a a = 1.0 := by
  cases a with
  | nil => rfl
  | cons c a =>
      have hdistance : editDistance (c :: a) (c :: a) = 0 :=
        (editDistance_eq_zero_iff _ _).2 rfl
      have hzero : Decimal.nearestNat 0 = 0.0 := by decide +kernel
      have hone : (1.0 : Float) - 0.0 = 1.0 := by decide +kernel
      have hlength : 0 < (c :: a).length := Nat.succ_pos _
      simp only [editRatio, List.isEmpty_cons, hdistance, hzero, Nat.max_self,
        Double.zero_div_nearestNat hlength, hone]

end EditRatio

end Resemblance
