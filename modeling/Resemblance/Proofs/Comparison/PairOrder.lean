import Mathlib.Tactic.Ring
import Resemblance.Analysis
import Resemblance.Proofs.Comparison.Naive

/-!
# The place of a pair

The pairs with one first position form a row, and the rows follow each other in
the order of these positions.  Each row is one pair shorter than the row before,
so the place of a pair is the number of pairs in the rows before its own and the
distance of its two positions.
-/

namespace Resemblance

section Rows

variable {n i j : Nat}

/-- The pairs whose first position is `i`. -/
def pairRow (n i : Nat) : List (Nat × Nat) :=
  (List.range' (i + 1) (n - (i + 1))).map (i, ·)

/-- The rows of the first positions below `i`. -/
def rowsBefore (n i : Nat) : List (Nat × Nat) :=
  (List.range i).flatMap (pairRow n)

theorem mem_pairRow_iff {p : Nat × Nat} :
    p ∈ pairRow n i ↔ p.1 = i ∧ i < p.2 ∧ p.2 < n := by
  obtain ⟨k, l⟩ := p
  simp only [pairRow, List.mem_map, List.mem_range'_1, Prod.mk.injEq]
  constructor
  · rintro ⟨m, hm, rfl, rfl⟩
    exact ⟨rfl, by omega, by omega⟩
  · rintro ⟨rfl, hkl, hl⟩
    exact ⟨l, by omega, rfl, rfl⟩

theorem getElem?_pairRow
    (hij : i < j)
    (hj : j < n) :
    (pairRow n i)[j - i - 1]? = some (i, j) := by
  have hplace : j - i - 1 < n - (i + 1) := by omega
  have hsecond : i + 1 + 1 * (j - i - 1) = j := by omega
  rw [pairRow, List.getElem?_map, List.getElem?_range' hplace, hsecond]
  rfl

theorem rowsBefore_succ (n i : Nat) :
    rowsBefore n (i + 1) = rowsBefore n i ++ pairRow n i := by
  simp [rowsBefore, List.range_succ, List.flatMap_append]

/-- Twice the number of pairs in the rows before one, without division. -/
theorem two_mul_length_rowsBefore (hi : i ≤ n) :
    2 * (rowsBefore n i).length + i * (i + 1) = 2 * (i * n) := by
  induction i with
  | zero => simp [rowsBefore]
  | succ i ih =>
      have hbefore := ih (Nat.le_of_succ_le hi)
      have hrow : (pairRow n i).length + (i + 1) = n := by
        simp [pairRow, Nat.sub_add_cancel hi]
      rw [rowsBefore_succ, List.length_append]
      calc 2 * ((rowsBefore n i).length + (pairRow n i).length) +
        (i + 1) * (i + 1 + 1)
          = (2 * (rowsBefore n i).length + i * (i + 1)) +
              2 * ((pairRow n i).length + (i + 1)) := by ring
        _ = 2 * (i * n) + 2 * n := by rw [hbefore, hrow]
        _ = 2 * ((i + 1) * n) := by ring

theorem length_rowsBefore (hi : i ≤ n) :
    (rowsBefore n i).length = i * n - i * (i + 1) / 2 := by
  have htwice := two_mul_length_rowsBefore hi
  omega

/-- The row of a position stands behind the rows of the earlier ones. -/
theorem exists_pairIndices_eq (hi : i < n) :
    ∃ later, pairIndices n = rowsBefore n i ++ (pairRow n i ++ later) := by
  obtain ⟨k, rfl⟩ := Nat.exists_eq_add_of_le (Nat.succ_le_of_lt hi)
  refine ⟨((List.range k).map (i + 1 + ·)).flatMap (pairRow (i + 1 + k)), ?_⟩
  rw [← List.append_assoc, ← rowsBefore_succ, rowsBefore, ← List.flatMap_append,
    ← List.range_add]
  rfl

end Rows

theorem mem_pairIndices_iff {n i j : Nat} :
    (i, j) ∈ pairIndices n ↔ i < j ∧ j < n := by
  have hrow : (i, j) ∈ pairIndices n ↔ ∃ k < n, (i, j) ∈ pairRow n k := by
    simp [pairIndices, pairRow]
  rw [hrow]
  constructor
  · rintro ⟨k, -, hmem⟩
    obtain ⟨rfl, hbounds⟩ := mem_pairRow_iff.1 hmem
    exact hbounds
  · rintro ⟨hij, hj⟩
    exact ⟨i, hij.trans hj, mem_pairRow_iff.2 ⟨rfl, hij, hj⟩⟩

/-- Inside a row the second positions ascend, and from row to row the first ones
do. -/
theorem pairwise_pairIndices (n : Nat) :
    (pairIndices n).Pairwise (Prod.Lex (· < ·) (· < ·)) := by
  change ((List.range n).flatMap (pairRow n)).Pairwise _
  rw [List.pairwise_flatMap]
  constructor
  · intro i _
    rw [pairRow, List.pairwise_map]
    exact (List.pairwise_lt_range' 1).imp fun hkl => Prod.Lex.right i hkl
  · apply List.pairwise_lt_range.imp
    rintro i k hik ⟨_, j⟩ hp ⟨_, l⟩ hq
    obtain ⟨rfl, -⟩ := mem_pairRow_iff.1 hp
    obtain ⟨rfl, -⟩ := mem_pairRow_iff.1 hq
    exact Prod.Lex.left j l hik

theorem getElem?_pairIndices
    {n i j : Nat}
    (hij : i < j)
    (hj : j < n) :
    (pairIndices n)[i * n - i * (i + 1) / 2 + (j - i - 1)]? = some (i, j) := by
  have hi : i < n := hij.trans hj
  obtain ⟨later, hsplit⟩ := exists_pairIndices_eq hi
  have hrow := getElem?_pairRow hij hj
  have hplace : j - i - 1 < (pairRow n i).length :=
    (List.getElem?_eq_some_iff.1 hrow).1
  rw [hsplit, ← length_rowsBefore hi.le,
    List.getElem?_append_right (Nat.le_add_right _ _), Nat.add_sub_cancel_left,
    List.getElem?_append_left hplace, hrow]

/-- The pairs of `n` files are listed once each, in ascending order, and each at
the place that its positions tell. -/
theorem pairIndices_in_order (n : Nat) :
    (pairIndices n).Pairwise (Prod.Lex (· < ·) (· < ·)) ∧
      (pairIndices n).Nodup ∧
      (∀ i j, (i, j) ∈ pairIndices n ↔ i < j ∧ j < n) ∧
      (pairIndices n).length = n * (n - 1) / 2 ∧
      (∀ a : Analysis, a.files.length = n →
        a.candidatePairs = (pairIndices n).length) ∧
      ∀ i j, i < j → j < n →
        (pairIndices n)[i * n - i * (i + 1) / 2 + (j - i - 1)]? =
          some (i, j) := by
  have hordered := pairwise_pairIndices n
  refine ⟨hordered, ?_, fun i j => mem_pairIndices_iff, length_pairIndices n,
    ?_, fun i j => getElem?_pairIndices⟩
  · apply hordered.imp
    rintro p _ hlex rfl
    rcases Prod.lex_iff.1 hlex with hless | ⟨-, hless⟩ <;>
      exact absurd hless (lt_irrefl _)
  · rintro a rfl
    exact (length_pairIndices a.files.length).symm

/-- The last pair of the second row among four files. -/
theorem pairIndices_in_order_four :
    (1, 3) ∈ pairIndices 4 ∧ (pairIndices 4).length = 6 ∧
      (pairIndices 4)[4]? = some (1, 3) := by
  obtain ⟨-, -, hmem, hlength, -, hplace⟩ := pairIndices_in_order 4
  exact ⟨(hmem 1 3).2 (by decide), hlength, hplace 1 3 (by decide) (by decide)⟩

end Resemblance
