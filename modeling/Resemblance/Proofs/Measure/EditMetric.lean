import Mathlib.Data.List.Basic
import Resemblance.Proofs.Measure.EditDistance

/-!
# The edit distance as a metric

The distance satisfies the laws of a metric.  It lies between the difference of
the two lengths and the larger of them, and both ends occur for any two lengths:
the lower one for a text and a part of it, the upper one for two texts without a
common character.  A common start or end of two texts makes no difference.
-/

namespace Resemblance

namespace EditDistance

variable {s t : List Char}

/-- What is left out of a text is deleted. -/
theorem between_of_sublist (hpart : t.Sublist s) :
    between s t + t.length = s.length := by
  induction hpart with
  | slnil => simp
  | @cons t s c _ ih =>
      have hlow := length_le_add_between (c :: s) t
      have hhigh := between_cons_le c s t
      rw [List.length_cons] at hlow ⊢
      omega
  | @cons_cons t s c _ ih =>
      rw [between_cons_self, List.length_cons, List.length_cons, ← ih,
        Nat.add_assoc]

/-- No character is kept. -/
theorem between_of_disjoint (hdisjoint : s.Disjoint t) :
    between s t = max s.length t.length := by
  induction s, t using between.induct with
  | case1 t => simp
  | case2 s => simp
  | case3 c s d t ihBoth ihLeft ihRight =>
      obtain ⟨hc, hs⟩ := List.disjoint_cons_left.1 hdisjoint
      obtain ⟨-, hcs⟩ := List.disjoint_cons_right.1 hdisjoint
      obtain ⟨-, hst⟩ := List.disjoint_cons_right.1 hs
      have hcd : c ≠ d := List.ne_of_not_mem_cons hc
      rw [between_cons_cons, if_neg hcd, ihBoth hst, ihLeft hs, ihRight hcs]
      simp only [List.length_cons]
      omega

end EditDistance

open EditDistance

theorem editDistance_of_sublist
    {a b : List Char}
    (hpart : b.Sublist a) :
    editDistance a b + b.length = a.length := by
  have hreversed := between_of_sublist (List.reverse_sublist.2 hpart)
  rw [List.length_reverse, List.length_reverse] at hreversed
  rw [editDistance_eq_between, hreversed]

theorem editDistance_of_disjoint
    {a b : List Char}
    (hdisjoint : a.Disjoint b) :
    editDistance a b = max a.length b.length := by
  have hreversed : a.reverse.Disjoint b.reverse := by
    simpa [List.disjoint_reverse_left, List.disjoint_reverse_right]
      using hdisjoint
  rw [editDistance_eq_between, between_of_disjoint hreversed,
    List.length_reverse, List.length_reverse]

theorem natAbs_length_sub_le (a b : List Char) :
    ((a.length : Int) - b.length).natAbs ≤ editDistance a b := by
  have hleft := length_le_add_between a.reverse b.reverse
  have hright := length_le_add_between b.reverse a.reverse
  rw [between_comm] at hright
  rw [editDistance_eq_between]
  simp only [List.length_reverse] at hleft hright
  omega

theorem editDistance_replicate_self
    (c : Char)
    (m n : Nat) :
    editDistance (.replicate m c) (.replicate n c) =
      ((m : Int) - n).natAbs := by
  wlog hle : n ≤ m generalizing m n with hswapped
  · rw [editDistance_comm, hswapped n m (by omega)]
    omega
  · have hpart :=
      editDistance_of_sublist ((List.replicate_sublist_replicate c).2 hle)
    simp only [List.length_replicate] at hpart
    omega

theorem editDistance_replicate_of_ne
    {c d : Char}
    (hcd : c ≠ d)
    (m n : Nat) :
    editDistance (.replicate m c) (.replicate n d) = max m n := by
  have hdisjoint : (List.replicate m c).Disjoint (List.replicate n d) := by
    intro e hc hd
    exact hcd
      ((List.eq_of_mem_replicate hc).symm.trans (List.eq_of_mem_replicate hd))
  rw [editDistance_of_disjoint hdisjoint, List.length_replicate,
    List.length_replicate]

/-- A metric.  Its bounds by the lengths are reached for any two lengths. -/
theorem editDistance_metric (a b c : List Char) :
    (editDistance a b = 0 ↔ a = b) ∧
    editDistance a b = editDistance b a ∧
    editDistance a c ≤ editDistance a b + editDistance b c ∧
    ((a.length : Int) - b.length).natAbs ≤ editDistance a b ∧
    editDistance a b ≤ max a.length b.length ∧
    ∀ m n : Nat,
      (∃ s t : List Char, s.length = m ∧ t.length = n ∧
        editDistance s t = ((m : Int) - n).natAbs) ∧
      (∃ s t : List Char, s.length = m ∧ t.length = n ∧
        editDistance s t = max m n) := by
  refine ⟨editDistance_eq_zero_iff a b, editDistance_comm a b,
    editDistance_triangle a b c, natAbs_length_sub_le a b, editDistance_le a b,
    fun m n => ⟨?_, ?_⟩⟩
  · exact ⟨_, _, List.length_replicate, List.length_replicate,
      editDistance_replicate_self 'a' m n⟩
  · exact ⟨_, _, List.length_replicate, List.length_replicate,
      editDistance_replicate_of_ne (by decide : 'a' ≠ 'b') m n⟩

/-- Only what stands between a common start and a common end is edited. -/
theorem editDistance_frame (p s a b : List Char) :
    editDistance (p ++ a ++ s) (p ++ b ++ s) = editDistance a b := by
  simp only [editDistance_eq_between, List.reverse_append]
  rw [between_append_left, between_append_right]

end Resemblance
