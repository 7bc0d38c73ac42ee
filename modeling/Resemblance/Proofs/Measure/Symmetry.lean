import Mathlib.Data.Finset.Card
import Mathlib.Data.Finset.Dedup
import Mathlib.Data.Finset.Filter
import Resemblance.Measure.Jaccard
import Resemblance.Proofs.Measure.Cosine
import Resemblance.Proofs.Measure.EditDistance
import Resemblance.Proofs.Measure.Frequency

/-!
# Symmetry of the measures

Each measure walks the smaller or the shorter of its two arguments.  None of
them tells the two apart: a dot product and an intersection are taken over one
set whichever side is walked, and a product of doubles does not depend on the
order of its factors.
-/

namespace Resemblance

section Products

open Float.Model

theorem sign_mul_comm (s t : UnpackedFloat.Sign) : s * t = t * s := by
  cases s <;> cases t <;> rfl

theorem unpacked_mul_comm
    (format : Format)
    (x y : UnpackedFloat) :
    UnpackedFloat.mul format x y = UnpackedFloat.mul format y x := by
  cases x with
  | notANumber =>
      cases y <;> rfl
  | infinity s =>
      cases y with
      | notANumber => rfl
      | infinity t => exact congrArg UnpackedFloat.infinity (sign_mul_comm s t)
      | zero t => rfl
      | finite t n f hn =>
          exact congrArg UnpackedFloat.infinity (sign_mul_comm s t)
  | zero s =>
      cases y with
      | notANumber => rfl
      | infinity t => rfl
      | zero t => exact congrArg UnpackedFloat.zero (sign_mul_comm s t)
      | finite t n f hn => exact congrArg UnpackedFloat.zero (sign_mul_comm s t)
  | finite s m e hm =>
      cases y with
      | notANumber => rfl
      | infinity t => exact congrArg UnpackedFloat.infinity (sign_mul_comm s t)
      | zero t => exact congrArg UnpackedFloat.zero (sign_mul_comm s t)
      | finite t n f hn =>
          change
            UnpackedFloat.roundWithAccuracy format (s * t) (m * n) (e + f)
                .exact =
              UnpackedFloat.roundWithAccuracy format (t * s) (n * m) (f + e)
                .exact
          rw [sign_mul_comm, Nat.mul_comm, Int.add_comm]

theorem float_mul_comm (x y : Float) : x * y = y * x := by
  change Float.ofModel (pack _) = Float.ofModel (pack _)
  rw [unpacked_mul_comm]

end Products

section Cosine

theorem Frequency.cosine_comm (f g : Frequency) : f.cosine g = g.cosine f := by
  unfold cosine
  rw [dot_comm, float_mul_comm]

theorem cosine_comm (a b : List String) : cosine a b = cosine b a := by
  rw [cosine_eq_cosine_ofTerms, cosine_eq_cosine_ofTerms, Frequency.cosine_comm]

end Cosine

section Jaccard

namespace StringSet

theorem nodup_toList (s : StringSet) : s.toList.Nodup := by
  apply s.ascending.imp
  intro v w hlt heq
  rw [heq] at hlt
  exact String.lt_irrefl w hlt

theorem length_filter_contains (s t : StringSet) :
    (s.toList.filter t.contains).length =
      (s.toList.toFinset ∩ t.toList.toFinset).card := by
  have hmembers : (s.toList.filter t.contains).toFinset =
      s.toList.toFinset ∩ t.toList.toFinset := by
    ext w
    simp [contains]
  rw [← hmembers, List.toFinset_card_of_nodup (s.nodup_toList.filter _)]

theorem interSize_eq_card (s t : StringSet) :
    s.interSize t = (s.toList.toFinset ∩ t.toList.toFinset).card := by
  unfold interSize
  by_cases hsize : s.size ≤ t.size
  · simp only [hsize, if_true]
    exact length_filter_contains s t
  · simp only [hsize, if_false]
    rw [Finset.inter_comm]
    exact length_filter_contains t s

theorem interSize_comm (s t : StringSet) : s.interSize t = t.interSize s := by
  rw [interSize_eq_card, interSize_eq_card, Finset.inter_comm]

theorem jaccard_comm (s t : StringSet) : s.jaccard t = t.jaccard s := by
  unfold jaccard
  rw [interSize_comm, Nat.add_comm]

end StringSet

theorem jaccard_comm (a b : List String) : jaccard a b = jaccard b a := by
  unfold jaccard
  rw [StringSet.jaccard_comm, Bool.or_comm]

end Jaccard

end Resemblance
