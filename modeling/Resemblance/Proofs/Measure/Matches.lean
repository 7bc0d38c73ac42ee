import Mathlib.Algebra.BigOperators.Fin
import Resemblance.Proofs.Measure.Frequency

/-!
# Matching places of two sequences

The dot product of the tables of two sequences is the number of pairs of places
that hold the same term.  There are at most as many as pairs of places, so for
sequences of less than `2 ^ 32` terms the products and their sums stay below
`2 ^ 64`, in whatever order the rows of the tables are walked.
-/

namespace Resemblance

open Finset Frequency

section Places

/-- The pairs of places at which two sequences hold the same term. -/
def matchingPlaces (a b : List String) : Finset (Fin a.length × Fin b.length) :=
  univ.filter fun p => a.get p.1 = b.get p.2

theorem sum_places_eq_count
    (w : String)
    (b : List String) :
    ∑ j : Fin b.length, (if w = b.get j then 1 else 0) = b.count w := by
  have hcount : ∀ ws : List String,
      (ws.map fun v => if w = v then 1 else 0).sum = ws.count w := by
    intro ws
    induction ws with
    | nil => rfl
    | cons v ws ih =>
        rw [List.map_cons, List.sum_cons, ih, List.count_cons, Nat.add_comm]
        by_cases hw : w = v
        · simp [hw]
        · simp [hw, Ne.symm hw]
  exact (Fin.sum_univ_fun_getElem b fun v => if w = v then 1 else 0).trans
    (hcount b)

theorem card_matchingPlaces (a b : List String) :
    (matchingPlaces a b).card = ∑ w ∈ a.toFinset, a.count w * b.count w := by
  calc (matchingPlaces a b).card
      = ∑ i : Fin a.length, ∑ j : Fin b.length,
        (if a.get i = b.get j then 1 else 0) := by
        rw [matchingPlaces, card_filter, Fintype.sum_prod_type]
    _ = ∑ i : Fin a.length, b.count (a.get i) := by
        simp only [sum_places_eq_count]
    _ = (a.map b.count).sum := Fin.sum_univ_fun_getElem a fun w => b.count w
    _ = ∑ w ∈ a.toFinset, a.count w * b.count w := by
        rw [Finset.sum_list_map_count]
        simp only [smul_eq_mul]

theorem dot_eq_card_matchingPlaces (a b : List String) :
    (ofTerms a).dot (ofTerms b) = (matchingPlaces a b).card := by
  rw [dot_ofTerms, card_matchingPlaces]

theorem card_matchingPlaces_lt
    {a b : List String}
    (ha : a.length < 2 ^ 32)
    (hb : b.length < 2 ^ 32) :
    (matchingPlaces a b).card < 2 ^ 64 := by
  calc (matchingPlaces a b).card
      ≤ Fintype.card (Fin a.length × Fin b.length) := card_le_univ _
    _ = a.length * b.length := by simp
    _ < 2 ^ 32 * 2 ^ 32 := Nat.mul_lt_mul'' ha hb
    _ = 2 ^ 64 := (Nat.pow_add 2 32 32).symm

end Places

section Words

/-- A result of sixty-four bits, none where it does not fit. -/
def word? (n : ℕ) : Option ℕ := if n < 2 ^ 64 then some n else none

theorem word?_of_lt {n : ℕ} (hn : n < 2 ^ 64) : word? n = some n := if_pos hn

def addProduct? (sum : ℕ) (p : ℕ × ℕ) : Option ℕ :=
  (word? (p.1 * p.2)).bind fun product => word? (sum + product)

/-- The products are added in the given order, each of them and each sum on the
way a word. -/
def sumProducts? (pairs : List (ℕ × ℕ)) : Option ℕ := pairs.foldlM addProduct? 0

theorem addProduct?_of_lt
    {sum : ℕ} {p : ℕ × ℕ}
    (hfits : sum + p.1 * p.2 < 2 ^ 64) :
    addProduct? sum p = some (sum + p.1 * p.2) := by
  rw [addProduct?, word?_of_lt (by omega), Option.bind_some, word?_of_lt hfits]

theorem foldlM_addProduct?_of_lt
    {pairs : List (ℕ × ℕ)} {sum : ℕ}
    (hfits : sum + (pairs.map fun p => p.1 * p.2).sum < 2 ^ 64) :
    pairs.foldlM addProduct? sum =
      some (sum + (pairs.map fun p => p.1 * p.2).sum) := by
  induction pairs generalizing sum with
  | nil => rfl
  | cons p pairs ih =>
      rw [List.map_cons, List.sum_cons, ← Nat.add_assoc] at hfits ⊢
      rw [List.foldlM_cons, addProduct?_of_lt (by omega)]
      exact ih hfits

theorem sumProducts?_of_lt
    {pairs : List (ℕ × ℕ)}
    (hfits : (pairs.map fun p => p.1 * p.2).sum < 2 ^ 64) :
    sumProducts? pairs = some (pairs.map fun p => p.1 * p.2).sum := by
  rw [← Nat.zero_add (pairs.map fun p => p.1 * p.2).sum] at hfits ⊢
  exact foldlM_addProduct?_of_lt hfits

namespace Frequency

def add? (f : Frequency) (w : String) : Option Frequency :=
  (word? (f.get w + 1)).map fun _ => f.add w

/-- Counting with a word for each term. -/
def countInWords? (ws : List String) : Option Frequency := ws.foldlM add? empty

def squaredNormInWords? (rows : List (String × ℕ)) : Option ℕ :=
  sumProducts? (rows.map fun p => (p.2, p.2))

/-- The rows in the given order times those that a table has for the same
terms. -/
def dotInWords? (rows : List (String × ℕ)) (g : Frequency) : Option ℕ :=
  sumProducts?
    (rows.filterMap fun p => (g.counts.lookup p.1).map fun n => (p.2, n))

theorem foldlM_add?_of_lt
    {ws : List String} {f : Frequency}
    (hfits : ∀ w, f.get w + ws.length < 2 ^ 64) :
    ws.foldlM add? f = some (ws.foldl add f) := by
  induction ws generalizing f with
  | nil => rfl
  | cons v ws ih =>
      simp only [List.length_cons] at hfits
      have hv := hfits v
      have hcount : add? f v = some (f.add v) := by
        rw [add?, word?_of_lt (by omega), Option.map_some]
      rw [List.foldlM_cons, hcount, List.foldl_cons]
      apply ih
      intro w
      have hw := hfits w
      rw [get_add]
      split <;> omega

theorem countInWords?_of_lt
    {ws : List String}
    (hws : ws.length < 2 ^ 64) :
    countInWords? ws = some (ofTerms ws) := by
  apply foldlM_add?_of_lt
  intro w
  have hempty : empty.get w = 0 := rfl
  omega

theorem sum_rows
    {f : Frequency} {rows : List (String × ℕ)}
    (hrows : rows.Perm f.counts)
    (h : String → ℕ) :
    (rows.map fun p => p.2 * h p.1).sum = ∑ w ∈ f.terms, f.get w * h w := by
  rw [(hrows.map _).sum_eq, ← foldr_counts, List.sum_eq_foldr, List.foldr_map]

theorem sum_filterMap_lookup
    (rows : List (String × ℕ))
    (g : Frequency) :
    ((rows.filterMap fun p => (g.counts.lookup p.1).map fun n => (p.2, n)).map
      fun p => p.1 * p.2).sum = (rows.map fun p => p.2 * g.get p.1).sum := by
  induction rows with
  | nil => rfl
  | cons p rows ih =>
      rw [List.map_cons, List.sum_cons, ← ih]
      cases hlookup : g.counts.lookup p.1 <;> simp [hlookup, get]

theorem squaredNormInWords?_of_lt
    {f : Frequency} {rows : List (String × ℕ)}
    (hrows : rows.Perm f.counts)
    (hfits : f.squaredNorm < 2 ^ 64) :
    squaredNormInWords? rows = some f.squaredNorm := by
  have hsum : ((rows.map fun p => (p.2, p.2)).map fun p => p.1 * p.2).sum =
      f.squaredNorm := by
    rw [List.map_map, squaredNorm, ← List.foldr_map, ← List.sum_eq_foldr]
    exact (hrows.map _).sum_eq
  rw [squaredNormInWords?, sumProducts?_of_lt (by rwa [hsum]), hsum]

theorem dotInWords?_of_lt
    {f g : Frequency} {rows : List (String × ℕ)}
    (hrows : rows.Perm f.counts)
    (hfits : f.dot g < 2 ^ 64) :
    dotInWords? rows g = some (f.dot g) := by
  have hsum := sum_filterMap_lookup rows g
  rw [sum_rows hrows, sum_terms, ← dot_eq_sum] at hsum
  rw [dotInWords?, sumProducts?_of_lt (by rwa [hsum]), hsum]

end Frequency

end Words

/-- All that is computed from two tables is exact in words, and the products
count matches. -/
theorem Frequency.dot_counts_matches
    {a b : List String}
    (ha : a.length < 2 ^ 32)
    (hb : b.length < 2 ^ 32) :
    countInWords? a = some (ofTerms a) ∧
    (∀ rows, rows.Perm (ofTerms a).counts →
      squaredNormInWords? rows = some (ofTerms a).squaredNorm ∧
      dotInWords? rows (ofTerms b) = some ((ofTerms a).dot (ofTerms b))) ∧
    (∀ rows, rows.Perm (ofTerms b).counts →
      dotInWords? rows (ofTerms a) = some ((ofTerms a).dot (ofTerms b))) ∧
    (ofTerms a).dot (ofTerms b) = (matchingPlaces a b).card ∧
    (ofTerms b).dot (ofTerms a) = (matchingPlaces a b).card ∧
    (ofTerms a).squaredNorm = (matchingPlaces a a).card ∧
    (ofTerms a).shared (ofTerms b) = (a.toFinset ∩ b.toFinset).card ∧
    ((ofTerms a).dot (ofTerms b) = 0 ↔ (ofTerms a).shared (ofTerms b) = 0) := by
  have hdot := dot_eq_card_matchingPlaces a b
  have hswapped : (ofTerms b).dot (ofTerms a) = (ofTerms a).dot (ofTerms b) :=
    dot_comm _ _
  have hnorm : (ofTerms a).squaredNorm = (matchingPlaces a a).card := by
    rw [← dot_self, dot_eq_card_matchingPlaces]
  have hdotFits := card_matchingPlaces_lt ha hb
  have hnormFits := card_matchingPlaces_lt ha ha
  rw [← hdot] at hdotFits
  rw [← hnorm] at hnormFits
  refine ⟨countInWords?_of_lt (by omega), ?_, ?_, hdot, hswapped.trans hdot,
    hnorm, shared_ofTerms a b, ?_⟩
  · intro rows hrows
    exact ⟨squaredNormInWords?_of_lt hrows hnormFits,
      dotInWords?_of_lt hrows hdotFits⟩
  · intro rows hrows
    rw [← hswapped]
    exact dotInWords?_of_lt hrows (hswapped.trans_lt hdotFits)
  · rw [dot_ofTerms_eq_zero_iff, shared_ofTerms_eq_zero_iff]

/-- Repeated terms on both sides, and terms that stand on one side only. -/
theorem Frequency.dot_counts_repeated :
    ["p", "p", "q", "r"].length < 2 ^ 32 ∧
      ["p", "q", "q", "s", "s", "s"].length < 2 ^ 32 ∧
    countInWords? ["p", "p", "q", "r"] = some (ofTerms ["p", "p", "q", "r"]) ∧
    dotInWords? [("r", 1), ("q", 1), ("p", 2)]
      (ofTerms ["p", "q", "q", "s", "s", "s"]) = some 4 ∧
    (matchingPlaces
      ["p", "p", "q", "r"] ["p", "q", "q", "s", "s", "s"]).card = 4 ∧
    (ofTerms ["p", "p", "q", "r"]).squaredNorm = 6 ∧
    (ofTerms ["p", "p", "q", "r"]).shared
      (ofTerms ["p", "q", "q", "s", "s", "s"]) = 2 := by
  have ha : ["p", "p", "q", "r"].length < 2 ^ 32 := by decide
  have hb : ["p", "q", "q", "s", "s", "s"].length < 2 ^ 32 := by decide
  rcases dot_counts_matches ha hb with
    ⟨hcount, hrows, -, hdot, -, hnorm, hshared, -⟩
  have hplaces :
      (matchingPlaces
        ["p", "p", "q", "r"] ["p", "q", "q", "s", "s", "s"]).card = 4 := by
    decide
  have hperm :
      [("r", 1), ("q", 1), ("p", 2)].Perm
        (ofTerms ["p", "p", "q", "r"]).counts := by
    decide +kernel
  refine ⟨ha, hb, hcount, ?_, hplaces, hnorm.trans (by decide),
    hshared.trans (by decide)⟩
  rw [(hrows _ hperm).2, hdot, hplaces]

end Resemblance
