import Mathlib.Algebra.BigOperators.Ring.Finset
import Mathlib.Algebra.Order.BigOperators.Group.Finset
import Resemblance.Frequency

/-!
# Frequency tables as functions

A table is read as the function that gives each term its number, which is zero
outside the finite set of listed terms; for the table of a sequence it counts
the occurrences.  The squared length and the dot product are sums over such
sets, so the product does not depend on which of the two tables is walked.
-/

namespace Resemblance

namespace Frequency

open Finset

def terms (f : Frequency) : Finset String := (f.counts.map (·.1)).toFinset

section Rows

theorem nodup_keys (f : Frequency) : (f.counts.map (·.1)).Nodup := by
  rw [List.nodup_iff_pairwise_ne, List.pairwise_map]
  apply f.ascending.imp
  intro p q hlt heq
  rw [heq] at hlt
  exact String.lt_irrefl q.1 hlt

theorem get_of_mem
    {f : Frequency} {w : String} {n : Nat}
    (hmem : (w, n) ∈ f.counts) :
    f.get w = n := by
  obtain ⟨before, after, hsplit⟩ := List.append_of_mem hmem
  have hnodup := f.nodup_keys
  rw [hsplit, List.map_append, List.nodup_append] at hnodup
  have hbefore : ∀ p ∈ before, (w != p.1) = true := by
    intro p hp
    have hne := hnodup.2.2 p.1 (List.mem_map_of_mem hp) w List.mem_cons_self
    exact bne_iff_ne.2 hne.symm
  have hlookup : f.counts.lookup w = some n :=
    List.lookup_eq_some_iff.2 ⟨before, after, hsplit, hbefore⟩
  rw [get, hlookup]
  rfl

theorem get_eq_zero
    {f : Frequency} {w : String}
    (hw : w ∉ f.terms) :
    f.get w = 0 := by
  have hlookup : f.counts.lookup w = none := by
    rw [List.lookup_eq_none_iff]
    intro p hp
    have hmem : p.1 ∈ f.terms := by
      simpa [terms] using ⟨p.2, hp⟩
    have hne : w ≠ p.1 := by
      rintro rfl
      exact hw hmem
    simpa using hne
  rw [get, hlookup]
  rfl

/-- A sum over the rows of a table is a sum over its terms. -/
theorem foldr_counts
    (f : Frequency)
    (h : String → Nat) :
    f.counts.foldr (fun (w, n) rest => n * h w + rest) 0 =
      ∑ w ∈ f.terms, f.get w * h w := by
  have hrows : ∀ rows : List (String × Nat), (∀ p ∈ rows, f.get p.1 = p.2) →
      rows.foldr (fun (w, n) rest => n * h w + rest) 0 =
        ((rows.map (·.1)).map fun w => f.get w * h w).sum := by
    intro rows hget
    induction rows with
    | nil => rfl
    | cons p rows ih =>
        have hp := hget p List.mem_cons_self
        have htail := ih fun q hq => hget q (List.mem_cons_of_mem p hq)
        simp only [List.foldr_cons, List.map_cons, List.sum_cons, htail, hp]
  rw [terms, List.sum_toFinset _ f.nodup_keys]
  exact hrows f.counts fun p hp => get_of_mem hp

end Rows

section Products

theorem sum_terms (f g : Frequency) :
    ∑ w ∈ f.terms, f.get w * g.get w = ∑ w ∈ f.terms ∪ g.terms,
      f.get w * g.get w := by
  apply sum_subset subset_union_left
  intro w _ hw
  rw [get_eq_zero hw, Nat.zero_mul]

theorem sum_terms_comm (f g : Frequency) :
    ∑ w ∈ f.terms ∪ g.terms, f.get w * g.get w =
      ∑ w ∈ g.terms ∪ f.terms, g.get w * f.get w := by
  rw [union_comm]
  exact sum_congr rfl fun w _ => Nat.mul_comm _ _

theorem dot_eq_sum (f g : Frequency) :
    f.dot g = ∑ w ∈ f.terms ∪ g.terms, f.get w * g.get w := by
  unfold dot bySize
  by_cases hsize : f.size ≤ g.size
  · simp only [hsize, if_true]
    rw [foldr_counts, sum_terms]
  · simp only [hsize, if_false]
    rw [foldr_counts, sum_terms, sum_terms_comm]

theorem dot_comm (f g : Frequency) : f.dot g = g.dot f := by
  rw [dot_eq_sum, dot_eq_sum, sum_terms_comm]

theorem squaredNorm_eq_sum (f : Frequency) :
    f.squaredNorm = ∑ w ∈ f.terms, f.get w * f.get w := by
  rw [← foldr_counts]
  unfold squaredNorm
  apply List.foldr_ext
  rintro ⟨w, n⟩ hp rest
  simp only [get_of_mem hp]

theorem dot_self (f : Frequency) : f.dot f = f.squaredNorm := by
  rw [dot_eq_sum, squaredNorm_eq_sum, union_self]

end Products

section Sequences

theorem getD_lookup_cons
    (u w : String)
    (n : Nat)
    (rows : List (String × Nat)) :
    (((u, n) :: rows).lookup w).getD 0 = if w = u then n
      else (rows.lookup w).getD 0 := by
  by_cases hw : w = u
  · rw [if_pos hw, hw, List.lookup_cons_self]
    rfl
  · rw [if_neg hw, List.lookup_cons, beq_eq_false_iff_ne.2 hw]

theorem getD_lookup_eq_zero
    {w : String}
    {rows : List (String × Nat)}
    (hbelow : ∀ p ∈ rows, w < p.1) :
    (rows.lookup w).getD 0 = 0 := by
  have habsent : rows.lookup w = none := by
    rw [List.lookup_eq_none_iff]
    intro p hp
    have hne : w ≠ p.1 := by
      intro heq
      have hlt := hbelow p hp
      rw [← heq] at hlt
      exact String.lt_irrefl w hlt
    simpa using hne
  rw [habsent]
  rfl

theorem getD_lookup_addOrdered
    (v w : String)
    {rows : List (String × Nat)}
    (hrows : rows.Pairwise fun a b => a.1 < b.1) :
    ((addOrdered v rows).lookup w).getD 0 =
      (rows.lookup w).getD 0 + if w = v then 1 else 0 := by
  induction rows with
  | nil =>
      rw [addOrdered, getD_lookup_cons]
      simp
  | cons p rows ih =>
      obtain ⟨u, n⟩ := p
      obtain ⟨hu, htail⟩ := List.pairwise_cons.1 hrows
      unfold addOrdered
      by_cases hlt : v < u
      · -- A term below the first row is not listed yet.
        have hfresh : (((u, n) :: rows).lookup v).getD 0 = 0 := by
          apply getD_lookup_eq_zero
          intro q hq
          rcases List.mem_cons.1 hq with rfl | hq
          · exact hlt
          · exact String.lt_trans hlt (hu q hq)
        rw [if_pos hlt, getD_lookup_cons v w]
        by_cases hw : w = v
        · simp only [hw, if_true, hfresh]
        · simp only [hw, if_false, Nat.add_zero]
      · rw [if_neg hlt]
        by_cases hvu : v = u
        · rw [if_pos hvu, getD_lookup_cons, getD_lookup_cons, hvu]
          by_cases hw : w = u
          · simp only [hw, if_true]
          · simp only [hw, if_false, Nat.add_zero]
        · rw [if_neg hvu, getD_lookup_cons, getD_lookup_cons, ih htail]
          by_cases hw : w = u
          · have hwv : w ≠ v := fun hwv => hvu (hwv.symm.trans hw)
            rw [if_pos hw, if_pos hw, if_neg hwv, Nat.add_zero]
          · rw [if_neg hw, if_neg hw]

theorem get_add
    (f : Frequency)
    (v w : String) :
    (f.add v).get w = f.get w + if w = v then 1 else 0 :=
  getD_lookup_addOrdered v w f.ascending

theorem get_foldl_add
    (f : Frequency)
    (ws : List String)
    (w : String) :
    (ws.foldl add f).get w = f.get w + ws.count w := by
  induction ws generalizing f with
  | nil => rfl
  | cons v ws ih =>
      rw [List.foldl_cons, ih, get_add, List.count_cons]
      by_cases hw : w = v
      · simp only [hw, if_true, beq_self_eq_true]
        omega
      · have hv : (v == w) = false := beq_eq_false_iff_ne.2 (Ne.symm hw)
        simp only [hw, hv, if_false, Bool.false_eq_true, Nat.add_zero]

theorem get_ofTerms
    (ws : List String)
    (w : String) :
    (ofTerms ws).get w = ws.count w := by
  have hget := get_foldl_add empty ws w
  have hempty : empty.get w = 0 := rfl
  rw [hempty, Nat.zero_add] at hget
  exact hget

theorem pos_of_mem_addOrdered
    {w : String} {rows : List (String × Nat)}
    (hrows : ∀ p ∈ rows, 0 < p.2) :
    ∀ p ∈ addOrdered w rows, 0 < p.2 := by
  induction rows with
  | nil => simp [addOrdered]
  | cons p rows ih =>
      rcases List.forall_mem_cons.1 hrows with ⟨hp, hrest⟩
      unfold addOrdered
      split_ifs
      · exact List.forall_mem_cons.2 ⟨one_pos, hrows⟩
      · exact List.forall_mem_cons.2 ⟨Nat.succ_pos p.2, hrest⟩
      · exact List.forall_mem_cons.2 ⟨hp, ih hrest⟩

/-- A listed term has occurred. -/
theorem pos_of_mem_ofTerms (ws : List String) :
    ∀ p ∈ (ofTerms ws).counts, 0 < p.2 := by
  have hadd : ∀ f : Frequency, (∀ p ∈ f.counts, 0 < p.2) →
      ∀ p ∈ (ws.foldl add f).counts, 0 < p.2 := by
    induction ws with
    | nil => exact fun f hf => hf
    | cons w ws ih => exact fun f hf => ih (f.add w) (pos_of_mem_addOrdered hf)
  exact hadd empty (by simp [empty])

theorem terms_ofTerms (ws : List String) :
    (ofTerms ws).terms = ws.toFinset := by
  ext w
  rw [List.mem_toFinset, ← List.count_pos_iff, ← get_ofTerms]
  constructor
  · intro hw
    simp only [terms, List.mem_toFinset, List.mem_map] at hw
    rcases hw with ⟨p, hp, rfl⟩
    rw [get_of_mem hp]
    exact pos_of_mem_ofTerms ws p hp
  · intro hpos
    by_contra hw
    rw [get_eq_zero hw] at hpos
    exact hpos.false

theorem length_filter_get
    (f : Frequency)
    (ws : List String) :
    (f.counts.filter fun (w, _) => (ofTerms ws).get w != 0).length =
      (f.terms ∩ ws.toFinset).card := by
  have hmembers :
      ((f.counts.filter fun (w, _) => (ofTerms ws).get w != 0).map
        (·.1)).toFinset =
      f.terms ∩ ws.toFinset := by
    ext w
    simp [terms, get_ofTerms, List.count_eq_zero]
  have hnodup :
      ((f.counts.filter
        fun (w, _) => (ofTerms ws).get w != 0).map (·.1)).Nodup :=
    f.nodup_keys.sublist (List.filter_sublist.map _)
  rw [← hmembers, List.toFinset_card_of_nodup hnodup, List.length_map]

theorem shared_ofTerms (a b : List String) :
    (ofTerms a).shared (ofTerms b) = (a.toFinset ∩ b.toFinset).card := by
  unfold shared bySize
  by_cases hsize : (ofTerms a).size ≤ (ofTerms b).size
  · simp only [hsize, if_true]
    rw [length_filter_get, terms_ofTerms]
  · simp only [hsize, if_false]
    rw [length_filter_get, terms_ofTerms, inter_comm]

theorem dot_ofTerms (a b : List String) :
    (ofTerms a).dot (ofTerms b) = ∑ w ∈ a.toFinset, a.count w * b.count w := by
  rw [dot_eq_sum, ← sum_terms, terms_ofTerms]
  simp only [get_ofTerms]

theorem dot_ofTerms_eq_zero_iff {a b : List String} :
    (ofTerms a).dot (ofTerms b) = 0 ↔ a.Disjoint b := by
  have hcount : ∀ w ∈ a.toFinset, a.count w * b.count w = 0 ↔ w ∉ b := by
    intro w hw
    have hpos := List.count_pos_iff.2 (List.mem_toFinset.1 hw)
    simp [hpos.ne', List.count_eq_zero]
  rw [dot_ofTerms, sum_eq_zero_iff, forall₂_congr hcount]
  simp [List.Disjoint]

theorem shared_ofTerms_eq_zero_iff {a b : List String} :
    (ofTerms a).shared (ofTerms b) = 0 ↔ a.Disjoint b := by
  rw [shared_ofTerms, card_eq_zero, ← disjoint_iff_inter_eq_empty,
    List.disjoint_toFinset_iff_disjoint]

theorem squaredNorm_ofTerms (ws : List String) :
    (ofTerms ws).squaredNorm = ∑ w ∈ ws.toFinset, ws.count w * ws.count w := by
  rw [← dot_self, dot_ofTerms]

theorem squaredNorm_ofTerms_le (ws : List String) :
    (ofTerms ws).squaredNorm ≤ ws.length * ws.length := by
  calc (ofTerms ws).squaredNorm
      = ∑ w ∈ ws.toFinset, ws.count w * ws.count w := squaredNorm_ofTerms ws
    _ ≤ ∑ w ∈ ws.toFinset, ws.length * ws.count w :=
        sum_le_sum fun w _ => Nat.mul_le_mul_right _ List.count_le_length
    _ = ws.length * ws.length := by
        rw [← mul_sum, List.sum_toFinset_count_eq_length]

theorem squaredNorm_ofTerms_lt
    {ws : List String}
    (hshort : ws.length < 2 ^ 32) :
    (ofTerms ws).squaredNorm < 2 ^ 64 := by
  calc (ofTerms ws).squaredNorm
      ≤ ws.length * ws.length := squaredNorm_ofTerms_le ws
    _ < 2 ^ 32 * 2 ^ 32 := Nat.mul_lt_mul'' hshort hshort
    _ = 2 ^ 64 := (Nat.pow_add 2 32 32).symm

theorem squaredNorm_ofTerms_pos
    {ws : List String}
    (hne : ws ≠ []) :
    0 < (ofTerms ws).squaredNorm := by
  obtain ⟨w, hw⟩ := List.exists_mem_of_ne_nil ws hne
  have hcount : 0 < ws.count w * ws.count w :=
    Nat.mul_pos (List.count_pos_iff.2 hw) (List.count_pos_iff.2 hw)
  rw [squaredNorm_ofTerms]
  exact lt_of_lt_of_le hcount
    (single_le_sum (fun v _ => Nat.zero_le (ws.count v * ws.count v))
      (List.mem_toFinset.2 hw))

end Sequences

end Frequency

end Resemblance
