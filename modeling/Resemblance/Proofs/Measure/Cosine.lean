import Resemblance.Measure.Cosine
import Resemblance.Proofs.Score.Order

/-!
# The cosine of two sequences

An empty sequence has an empty frequency table, which shares no term with any
other.  The early zero for empty sequences is therefore the cosine of their
tables, and a cosine is never undefined.
-/

namespace Resemblance

namespace Frequency

theorem dot_empty_left (g : Frequency) : empty.dot g = 0 := by
  have hsize : empty.size ≤ g.size := Nat.zero_le _
  simp only [dot, bySize, hsize, if_true]
  rfl

theorem dot_empty_right (f : Frequency) : f.dot empty = 0 := by
  unfold dot bySize
  by_cases hsize : f.size ≤ empty.size
  · have hcounts : f.counts = [] :=
      List.length_eq_zero_iff.1 (Nat.le_zero.1 hsize)
    simp only [hsize, if_true, hcounts, List.foldr_nil]
  · simp only [hsize, if_false]
    rfl

theorem cosine_of_dot_eq_zero
    {f g : Frequency}
    (hdot : f.dot g = 0) :
    f.cosine g = 0.0 := by
  unfold cosine
  rw [hdot]
  rfl

theorem isNaN_cosine (f g : Frequency) : (f.cosine g).isNaN = false := by
  have hzero : (0.0 : Float).isNaN = false := by decide
  have hone : (1.0 : Float).isNaN = false := by decide
  simp only [cosine]
  split
  · exact hzero
  · split
    · exact hzero
    · exact Score.isNaN_smaller hone _

end Frequency

theorem cosine_eq_cosine_ofTerms (a b : List String) :
    cosine a b = (Frequency.ofTerms a).cosine (Frequency.ofTerms b) := by
  unfold cosine
  cases a with
  | nil =>
      exact (Frequency.cosine_of_dot_eq_zero (Frequency.dot_empty_left _)).symm
  | cons v a =>
      cases b with
      | nil =>
          exact (Frequency.cosine_of_dot_eq_zero
            (Frequency.dot_empty_right _)).symm
      | cons w b => rfl

theorem isNaN_cosine (a b : List String) : (cosine a b).isNaN = false := by
  rw [cosine_eq_cosine_ofTerms]
  exact Frequency.isNaN_cosine _ _

end Resemblance
