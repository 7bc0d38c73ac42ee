import Resemblance.Measure.EditDistance

/-!
# The table behind the edit distance

The distance of two texts is a recursion over their last characters, and a row
of the table holds the distances from one text to all starts of the other.
Which text is walked along the rows therefore makes no difference, and two
texts are at distance zero when they are one text.
-/

namespace Resemblance

namespace EditDistance

/-- The distance of two texts that are read from their ends. -/
def between : List Char → List Char → Nat
  | [], t => t.length
  | s, [] => s.length
  | c :: s, d :: t =>
    min (min (between s t + if c = d then 0 else 1) (between s (d :: t) + 1))
      (between (c :: s) t + 1)

@[simp] theorem between_nil_left (t : List Char) : between [] t = t.length := by
  simp [between]

@[simp] theorem between_nil_right (s : List Char) :
    between s [] = s.length := by
  cases s <;> simp [between]

theorem between_cons_cons
    (c d : Char)
    (s t : List Char) :
    between (c :: s) (d :: t) =
      min (min (between s t + if c = d then 0 else 1) (between s (d :: t) + 1))
        (between (c :: s) t + 1) := by
  rw [between]

theorem between_cons_cons_cases
    (c d : Char)
    (s t : List Char) :
    between (c :: s) (d :: t) = between s t + (if c = d then 0 else 1) ∨
      between (c :: s) (d :: t) = between s (d :: t) + 1 ∨
      between (c :: s) (d :: t) = between (c :: s) t + 1 := by
  rw [between_cons_cons]
  omega

theorem between_cons_cons_le
    (c d : Char)
    (s t : List Char) :
    between (c :: s) (d :: t) ≤ between s t + (if c = d then 0 else 1) ∧
      between (c :: s) (d :: t) ≤ between s (d :: t) + 1 ∧
      between (c :: s) (d :: t) ≤ between (c :: s) t + 1 := by
  rw [between_cons_cons]
  omega

theorem between_comm (s t : List Char) : between s t = between t s := by
  induction s, t using between.induct with
  | case1 t => simp
  | case2 s => simp
  | case3 c s d t ihBoth ihLeft ihRight =>
      have hcost : (if c = d then 0 else 1) = if d = c then 0 else 1 := by
        simp [eq_comm]
      rw [between_cons_cons, between_cons_cons, ihBoth, ihLeft, ihRight, hcost]
      omega

theorem between_eq_zero_iff (s t : List Char) : between s t = 0 ↔ s = t := by
  induction s, t using between.induct with
  | case1 t =>
      simp [eq_comm]
  | case2 s =>
      simp
  | case3 c s d t ihBoth ihLeft ihRight =>
      rw [between_cons_cons, List.cons.injEq, ← ihBoth]
      by_cases hcd : c = d
      · simp only [hcd, if_true, true_and]
        omega
      · simp only [hcd, if_false, false_and, iff_false]
        omega

section Bounds

theorem between_le (s t : List Char) : between s t ≤ max s.length t.length := by
  induction s, t using between.induct with
  | case1 t => simp
  | case2 s => simp
  | case3 c s d t ihBoth ihLeft ihRight =>
      have hcost : (if c = d then 0 else 1) ≤ 1 := by
        split <;> omega
      rw [between_cons_cons, List.length_cons, List.length_cons]
      omega

theorem length_le_add_between (s t : List Char) :
    s.length ≤ t.length + between s t := by
  induction s, t using between.induct with
  | case1 t => simp
  | case2 s => simp
  | case3 c s d t ihBoth ihLeft ihRight =>
      simp only [List.length_cons] at ihLeft ihRight ⊢
      rw [between_cons_cons]
      omega

theorem between_cons_le
    (c : Char)
    (s t : List Char) :
    between (c :: s) t ≤ between s t + 1 := by
  cases t with
  | nil => simp
  | cons d t => exact (between_cons_cons_le c d s t).2.1

theorem between_append_self (s t : List Char) :
    between (s ++ t) t = s.length := by
  induction s with
  | nil => exact (between_eq_zero_iff t t).2 rfl
  | cons c s ih =>
      have hlow := length_le_add_between (c :: s ++ t) t
      have hhigh := between_cons_le c (s ++ t) t
      simp only [List.cons_append, List.length_cons,
        List.length_append] at hlow hhigh ⊢
      omega

theorem between_triangle (s t u : List Char) :
    between s u ≤ between s t + between t u := by
  induction s, t using between.induct generalizing u with
  | case1 t =>
      have hlength := length_le_add_between u t
      rw [between_comm u t] at hlength
      simpa using hlength
  | case2 s =>
      have hmax := between_le s u
      rw [between_nil_right, between_nil_left]
      omega
  | case3 c s d t ihBoth ihLeft ihRight =>
      induction u with
      | nil =>
          simpa [Nat.add_comm] using length_le_add_between (c :: s) (d :: t)
      | cons e u ih =>
          have hcost : (if c = e then 0 else 1) ≤
              (if c = d then 0 else 1) + if d = e then 0 else 1 := by
            grind
          have hends := between_cons_cons_le c e s u
          have hboth := ihBoth u
          have hleft := ihLeft (e :: u)
          -- The first characters are treated in one of three ways on either
          -- leg.
          rcases between_cons_cons_cases c d s t with hst | hst | hst
          · have hinner := ihBoth (e :: u)
            rcases between_cons_cons_cases d e t u with htu | htu | htu <;>
              omega
          · omega
          · have hinner := ihRight (e :: u)
            have hright := ihRight u
            rcases between_cons_cons_cases d e t u with htu | htu | htu <;>
              omega

theorem between_le_cons
    (c : Char)
    (s t : List Char) :
    between s t ≤ between (c :: s) t + 1 := by
  have hdeleted := between_append_self [c] s
  have htriangle := between_triangle s (c :: s) t
  rw [List.singleton_append, List.length_singleton, between_comm] at hdeleted
  omega

/-- Nothing is gained by matching a common character with another place. -/
theorem between_cons_self
    (c : Char)
    (s t : List Char) :
    between (c :: s) (c :: t) = between s t := by
  have hleft := between_le_cons c s t
  have hright := between_le_cons c t s
  rw [between_comm t s, between_comm (c :: t) s] at hright
  rw [between_cons_cons, if_pos rfl]
  omega

theorem between_append_left (p s t : List Char) :
    between (p ++ s) (p ++ t) = between s t := by
  induction p with
  | nil => rfl
  | cons c p ih =>
      rw [List.cons_append, List.cons_append, between_cons_self, ih]

theorem between_append_right (s t q : List Char) :
    between (s ++ q) (t ++ q) = between s t := by
  induction s, t using between.induct with
  | case1 t =>
      rw [List.nil_append, between_comm, between_append_self, between_nil_left]
  | case2 s => rw [List.nil_append, between_append_self, between_nil_right]
  | case3 c s d t ihBoth ihLeft ihRight =>
      -- The common end stands behind each of the three shorter pairs.
      simp only [List.cons_append] at ihLeft ihRight ⊢
      rw [between_cons_cons, between_cons_cons, ihBoth, ihLeft, ihRight]

end Bounds

/-- The distances from `s` to the further starts of a text; `before` is the
start that is already behind, its last character first. -/
def rowFrom (s before : List Char) : List Char → List Nat
  | [] => []
  | d :: inner => between s (d :: before) :: rowFrom s (d :: before) inner

theorem extendRow_eq
    (c : Char)
    (s before inner : List Char) :
    extendRow c (between (c :: s) before) (between s before) inner
      (rowFrom s before inner) =
      rowFrom (c :: s) before inner := by
  induction inner generalizing before with
  | nil => simp [extendRow, rowFrom]
  | cons d inner ih =>
      simp only [extendRow, rowFrom]
      rw [← between_cons_cons, ih]

theorem nextRow_eq
    (c : Char)
    (s inner : List Char) :
    nextRow inner (s.length :: rowFrom s [] inner) c =
      (c :: s).length :: rowFrom (c :: s) [] inner := by
  have hrow := extendRow_eq c s [] inner
  simp only [between_nil_right, List.length_cons] at hrow
  simp only [nextRow, hrow, List.length_cons]

theorem range'_eq_rowFrom (before inner : List Char) :
    List.range' (before.length + 1) inner.length = rowFrom [] before inner := by
  induction inner generalizing before with
  | nil => simp [rowFrom]
  | cons d inner ih =>
      have hnext := ih (d :: before)
      simp only [List.length_cons] at hnext
      simp only [rowFrom, List.length_cons, List.range'_succ, between_nil_left,
        hnext]

theorem foldl_nextRow (outer s inner : List Char) :
    outer.foldl (nextRow inner) (s.length :: rowFrom s [] inner) =
      (outer.reverse ++ s).length :: rowFrom (outer.reverse ++ s) [] inner := by
  induction outer generalizing s with
  | nil => rfl
  | cons c outer ih =>
      have hshift : (c :: outer).reverse ++ s = outer.reverse ++ c :: s := by
        simp
      rw [List.foldl_cons, nextRow_eq, ih (c :: s), hshift]

theorem lastRow_eq (outer inner : List Char) :
    lastRow outer inner = outer.length :: rowFrom outer.reverse [] inner := by
  have hfirst : List.range (inner.length + 1) =
      ([] : List Char).length :: rowFrom [] [] inner := by
    rw [← range'_eq_rowFrom, List.range_eq_range', List.range'_succ]
    rfl
  have hrows := foldl_nextRow outer [] inner
  rw [List.append_nil, List.length_reverse] at hrows
  rw [lastRow, hfirst, hrows]

theorem getLastD_rowFrom (s before inner : List Char) :
    (rowFrom s before inner).getLastD (between s before) =
      between s (inner.reverse ++ before) := by
  induction inner generalizing before with
  | nil => rfl
  | cons d inner ih =>
      have hshift : (d :: inner).reverse ++ before =
          inner.reverse ++ d :: before := by simp
      rw [rowFrom, List.getLastD_cons, ih (d :: before), hshift]

theorem getLastD_lastRow (outer inner : List Char) :
    (lastRow outer inner).getLastD 0 = between outer.reverse inner.reverse := by
  have hlast := getLastD_rowFrom outer.reverse [] inner
  rw [between_nil_right, List.length_reverse, List.append_nil] at hlast
  rw [lastRow_eq, List.getLastD_cons, hlast]

end EditDistance

open EditDistance

theorem editDistance_eq_between (a b : List Char) :
    editDistance a b = between a.reverse b.reverse := by
  have hwalk (outer inner : List Char) :
      (if inner.isEmpty then outer.length
        else (lastRow outer inner).getLastD 0) =
        between outer.reverse inner.reverse := by
    cases inner with
    | nil => simp
    | cons d inner => exact getLastD_lastRow outer (d :: inner)
  unfold editDistance
  by_cases hshort : a.length < b.length
  · simp only [hshort, if_true, hwalk]
    exact between_comm b.reverse a.reverse
  · simp only [hshort, if_false, hwalk]

theorem editDistance_comm (a b : List Char) :
    editDistance a b = editDistance b a := by
  rw [editDistance_eq_between, editDistance_eq_between, between_comm]

theorem editDistance_eq_zero_iff (a b : List Char) :
    editDistance a b = 0 ↔ a = b := by
  rw [editDistance_eq_between, between_eq_zero_iff, List.reverse_inj]

theorem editDistance_le (a b : List Char) :
    editDistance a b ≤ max a.length b.length := by
  have hbound := between_le a.reverse b.reverse
  rw [List.length_reverse, List.length_reverse] at hbound
  rw [editDistance_eq_between]
  exact hbound

theorem editDistance_triangle (a b c : List Char) :
    editDistance a c ≤ editDistance a b + editDistance b c := by
  simp only [editDistance_eq_between]
  exact between_triangle a.reverse b.reverse c.reverse

/-- Only what differs has to be edited. -/
theorem editDistance_frame_le (p s a b : List Char) :
    editDistance (p ++ a ++ s) (p ++ b ++ s) ≤ editDistance a b := by
  simp only [editDistance_eq_between, List.reverse_append]
  exact Nat.le_of_eq
    ((between_append_left _ _ _).trans (between_append_right _ _ _))

theorem editRatio_comm (a b : List Char) : editRatio a b = editRatio b a := by
  unfold editRatio
  rw [editDistance_comm, Nat.max_comm]
  cases a <;> cases b <;> rfl

end Resemblance
