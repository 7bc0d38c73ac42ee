import Resemblance.Proofs.Double.Overflow
import Resemblance.Proofs.Measure.UnitInterval

/-!
# Measures of sequences of any length

Counts beyond the largest double are infinite, and the quotient of two of them
is undefined.  A cosine is cut off at one even then; the other two measures lie
in the unit interval or are undefined.
-/

namespace Resemblance

open Double Decimal

theorem Frequency.cosine_inUnit (f g : Frequency) : InUnit (f.cosine g) := by
  unfold cosine
  simp only
  split
  next => exact inUnit_zero
  next =>
    split
    next => exact inUnit_zero
    next =>
      have hf := (unsigned_ofNat f.squaredNorm).unpack_pack
      have hg := (unsigned_ofNat g.squaredNorm).unpack_pack
      have hroot := (hf.mul hg).unpack_pack.sqrt.unpack_pack
      have hdot := (unsigned_ofNat (f.dot g)).unpack_pack
      exact (hdot.div hroot).unpack_pack.inUnit_smaller_one

theorem cosine_inUnit (a b : List String) : InUnit (cosine a b) := by
  rw [cosine_eq_cosine_ofTerms]
  exact Frequency.cosine_inUnit _ _

theorem StringSet.jaccard_inUnitOrUndefined (s t : StringSet) :
    InUnitOrUndefined (s.jaccard t) := by
  obtain ⟨hleft, hright⟩ := s.interSize_le t
  unfold jaccard
  simp only
  split
  next => exact .inUnit inUnit_zero
  next hsize =>
    exact inUnitOrUndefined_nearestNat_div (Nat.pos_of_ne_zero hsize) (by omega)

theorem jaccard_inUnitOrUndefined (a b : List String) :
    InUnitOrUndefined (jaccard a b) := by
  unfold jaccard
  split
  next => exact .inUnit inUnit_zero
  next => exact StringSet.jaccard_inUnitOrUndefined _ _

theorem editRatio_inUnitOrUndefined (a b : List Char) :
    InUnitOrUndefined (editRatio a b) := by
  cases a with
  | nil =>
      cases b with
      | nil => exact .inUnit inUnit_one
      | cons d b => exact .inUnit inUnit_zero
  | cons c a =>
      cases b with
      | nil => exact .inUnit inUnit_zero
      | cons d b =>
          have hpos : 0 < max (c :: a).length (d :: b).length :=
            lt_max_of_lt_left (Nat.succ_pos _)
          exact (inUnitOrUndefined_nearestNat_div hpos
            (editDistance_le _ _)).one_sub

end Resemblance
