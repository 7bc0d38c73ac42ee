import Resemblance.Score

/-!
# The order of scores

Doubles other than the undefined one are ordered like triples: first by class,
from minus infinity over zero to infinity, then by exponent and mantissa, which
count downward below zero.  The larger of two scores reaches a threshold when
one of the two does.
-/

namespace Resemblance.Score

open Float.Model

/-- Class, exponent and mantissa of a double, in the order in which doubles are
compared. -/
structure Rank where
  level : Int
  exponent : Int
  mantissa : Int

namespace Rank

def ofUnpacked : UnpackedFloat → Rank
  | .infinity .negative => ⟨-2, 0, 0⟩
  | .finite .negative m e _ => ⟨-1, -e, -m⟩
  | .zero _ | .notANumber => ⟨0, 0, 0⟩
  | .finite .positive m e _ => ⟨1, e, m⟩
  | .infinity .positive => ⟨2, 0, 0⟩

def compare (x y : Rank) : Ordering :=
  (Ord.compare x.level y.level).then
    ((Ord.compare x.exponent y.exponent).then
      (Ord.compare x.mantissa y.mantissa))

def Le (x y : Rank) : Prop :=
  x.level < y.level ∨ x.level = y.level ∧
    (x.exponent < y.exponent ∨
      x.exponent = y.exponent ∧ x.mantissa ≤ y.mantissa)

theorem Le.trans {x y z : Rank} (hxy : x.Le y) (hyz : y.Le z) : x.Le z := by
  unfold Le at *
  omega

theorem Le.total (x y : Rank) : x.Le y ∨ y.Le x := by
  unfold Le
  omega

theorem isLE_compare_iff (x y : Rank) : (x.compare y).isLE = true ↔ x.Le y := by
  simp only [compare, Le, Ordering.isLE_then_iff_or, Int.compare_eq_lt,
    Int.compare_eq_eq, Int.isLE_compare]

theorem compare_eq_lt_iff (x y : Rank) : x.compare y = .lt ↔ ¬ y.Le x := by
  simp only [compare, Le, Ordering.then_eq_lt, Int.compare_eq_lt,
    Int.compare_eq_eq]
  omega

theorem compare_eq_eq_iff (x y : Rank) :
    x.compare y = .eq ↔ x.Le y ∧ y.Le x := by
  simp only [compare, Le, Ordering.then_eq_eq, Int.compare_eq_eq]
  omega

end Rank

theorem compare_natCast (m n : Nat) :
    compare (m : Int) (n : Int) = compare m n := by
  rcases Nat.lt_trichotomy m n with h | rfl | h
  · rw [Nat.compare_eq_lt.2 h, Int.compare_eq_lt.2 (Int.ofNat_lt.2 h)]
  · rw [Nat.compare_eq_eq.2 rfl, Int.compare_eq_eq.2 rfl]
  · rw [Nat.compare_eq_gt.2 h, Int.compare_eq_gt.2 (Int.ofNat_lt.2 h)]

theorem compare_neg (e f : Int) : compare (-e) (-f) = (compare e f).swap := by
  rcases Int.lt_trichotomy e f with h | rfl | h
  · rw [Int.compare_eq_lt.2 h, Int.compare_eq_gt.2 (Int.neg_lt_neg h)]
    rfl
  · rw [Int.compare_eq_eq.2 rfl, Int.compare_eq_eq.2 rfl]
    rfl
  · rw [Int.compare_eq_gt.2 h, Int.compare_eq_lt.2 (Int.neg_lt_neg h)]
    rfl

theorem Rank.compare_above
    (e f : Int)
    (m n : Nat) :
    Rank.compare ⟨1, e, m⟩ ⟨1, f, n⟩ =
      (Ord.compare e f).then (Ord.compare m n) := by
  rw [← compare_natCast]
  rfl

theorem Rank.compare_below
    (e f : Int)
    (m n : Nat) :
    Rank.compare ⟨-1, -e, -m⟩ ⟨-1, -f, -n⟩ =
      ((Ord.compare e f).then (Ord.compare m n)).swap := by
  rw [Ordering.swap_then, ← compare_natCast, ← compare_neg, ← compare_neg]
  rfl

theorem unpacked_compare_eq (x y : UnpackedFloat) :
    x.compare y =
      if x.isNaN || y.isNaN then none
      else some ((Rank.ofUnpacked x).compare (Rank.ofUnpacked y)) := by
  rcases x with ⟨_ | _⟩ | _ | _ | ⟨_ | _, m, e, hm⟩ <;>
    rcases y with ⟨_ | _⟩ | _ | _ | ⟨_ | _, n, f, hn⟩
  case finite.negative.finite.negative =>
    exact congrArg some (Rank.compare_below e f m n).symm
  case finite.positive.finite.positive =>
    exact congrArg some (Rank.compare_above e f m n).symm
  all_goals rfl

def rank (x : Float) : Rank := Rank.ofUnpacked x.toModel.unpack

theorem le_iff (x y : Float) :
    x ≤ y ↔ x.isNaN = false ∧ y.isNaN = false ∧ (rank x).Le (rank y) := by
  change decide (x.toModel ≤ y.toModel) = true ↔ _
  rw [decide_eq_true_iff]
  change (x.toModel.unpack.compare y.toModel.unpack).any (·.isLE) = true ↔ _
  rw [unpacked_compare_eq]
  change _ ↔ x.toModel.unpack.isNaN = false ∧ y.toModel.unpack.isNaN = false ∧ _
  rw [rank, rank, ← Rank.isLE_compare_iff]
  cases x.toModel.unpack.isNaN <;> cases y.toModel.unpack.isNaN <;> simp

theorem lt_iff (x y : Float) :
    x < y ↔ x.isNaN = false ∧ y.isNaN = false ∧ ¬ (rank y).Le (rank x) := by
  change decide (x.toModel < y.toModel) = true ↔ _
  rw [decide_eq_true_iff]
  change (x.toModel.unpack.compare y.toModel.unpack == some .lt) = true ↔ _
  rw [unpacked_compare_eq]
  change _ ↔ x.toModel.unpack.isNaN = false ∧ y.toModel.unpack.isNaN = false ∧ _
  rw [rank, rank, ← Rank.compare_eq_lt_iff]
  cases x.toModel.unpack.isNaN <;> cases y.toModel.unpack.isNaN <;> simp

theorem beq_iff (x y : Float) : (x == y) = true ↔ x ≤ y ∧ y ≤ x := by
  have hcore : (x == y) = true ↔
      x.isNaN = false ∧ y.isNaN = false ∧ (rank x).compare (rank y) = .eq := by
    change (x.toModel.unpack.compare y.toModel.unpack == some .eq) = true ↔ _
    rw [unpacked_compare_eq]
    change _ ↔ x.toModel.unpack.isNaN = false ∧
      y.toModel.unpack.isNaN = false ∧ _
    rw [rank, rank]
    cases x.toModel.unpack.isNaN <;> cases y.toModel.unpack.isNaN <;> simp
  rw [hcore, Rank.compare_eq_eq_iff, le_iff, le_iff]
  grind

theorem le_refl {x : Float} (hx : x.isNaN = false) : x ≤ x :=
  (le_iff x x).2 ⟨hx, hx, (Rank.Le.total _ _).elim id id⟩

theorem le_trans {x y z : Float} (hxy : x ≤ y) (hyz : y ≤ z) : x ≤ z := by
  rw [le_iff] at *
  exact ⟨hxy.1, hyz.2.1, hxy.2.2.trans hyz.2.2⟩

theorem le_of_lt {x y : Float} (hxy : x < y) : x ≤ y := by
  rw [lt_iff] at hxy
  exact (le_iff x y).2
    ⟨hxy.1, hxy.2.1, (Rank.Le.total _ _).resolve_right hxy.2.2⟩

theorem lt_of_le_of_lt {x y z : Float} (hxy : x ≤ y) (hyz : y < z) : x < z := by
  rw [le_iff] at hxy
  rw [lt_iff] at hyz ⊢
  exact ⟨hxy.1, hyz.2.1, fun hzx => hyz.2.2 (hzx.trans hxy.2.2)⟩

theorem not_lt_iff
    {x y : Float}
    (hx : x.isNaN = false)
    (hy : y.isNaN = false) :
    ¬ x < y ↔ y ≤ x := by
  rw [lt_iff, le_iff]
  simp only [hx, hy, true_and, Classical.not_not]

theorem le_of_not_le
    {x y : Float}
    (hx : x.isNaN = false)
    (hy : y.isNaN = false)
    (hxy : ¬ x ≤ y) :
    y ≤ x := by
  rw [le_iff] at *
  refine ⟨hy, hx,
    (Rank.Le.total (rank x) (rank y)).resolve_left fun hle => hxy ?_⟩
  exact ⟨hx, hy, hle⟩

theorem isNaN_larger
    {x : Float}
    (hx : x.isNaN = false)
    (y : Float) :
    (larger x y).isNaN = false := by
  unfold larger
  rw [hx]
  by_cases hle : x ≤ y
  · simpa [hle] using ((le_iff x y).1 hle).2.1
  · simpa [hle] using hx

theorem isNaN_smaller
    {y : Float}
    (hy : y.isNaN = false)
    (x : Float) :
    (smaller x y).isNaN = false := by
  unfold smaller
  split
  next => exact hy
  next hx =>
    split
    next => exact hy
    next => exact Bool.eq_false_iff.2 hx

/-- An undefined second score counts for nothing. -/
theorem le_larger_iff
    {x : Float}
    (hx : x.isNaN = false)
    (y t : Float) :
    t ≤ larger x y ↔ t ≤ x ∨ t ≤ y := by
  unfold larger
  rw [hx]
  by_cases hle : x ≤ y
  · simp only [Bool.false_eq_true, if_false, hle, if_true]
    exact ⟨Or.inr, fun ht => ht.elim (fun htx => le_trans htx hle) id⟩
  · simp only [Bool.false_eq_true, if_false, hle]
    refine ⟨Or.inl, fun ht => ht.elim id fun hty => ?_⟩
    exact le_trans hty (le_of_not_le hx ((le_iff t y).1 hty).2.1 hle)

variable {x y : Float}

theorem smaller_spec
    (hx : x.isNaN = false)
    (hy : y.isNaN = false) :
    (smaller x y).isNaN = false ∧ smaller x y ≤ x ∧ smaller x y ≤ y := by
  refine ⟨isNaN_smaller hy x, ?_⟩
  rw [smaller, hx, if_neg Bool.false_ne_true]
  split
  next hle => exact ⟨hle, le_refl hy⟩
  next hle => exact ⟨le_refl hx, le_of_not_le hy hx hle⟩

theorem larger_spec
    (hx : x.isNaN = false)
    (hy : y.isNaN = false) :
    (larger x y).isNaN = false ∧ x ≤ larger x y ∧ y ≤ larger x y := by
  refine ⟨isNaN_larger hx y, ?_⟩
  rw [larger, hx, if_neg Bool.false_ne_true]
  split
  next hle => exact ⟨hle, le_refl hy⟩
  next hle => exact ⟨le_refl hx, le_of_not_le hx hy hle⟩

end Resemblance.Score
