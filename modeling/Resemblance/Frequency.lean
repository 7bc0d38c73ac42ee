/-!
# Frequencies of terms

A frequency table lists each term of a sequence with the number of its
occurrences, terms ascending.  It is the multiset of the sequence: equal
multisets give equal tables.
-/

namespace Resemblance

structure Frequency where
  counts : List (String × Nat)
  ascending : counts.Pairwise fun a b => a.1 < b.1
  deriving DecidableEq

namespace Frequency

def empty : Frequency := ⟨[], .nil⟩

def addOrdered (w : String) : List (String × Nat) → List (String × Nat)
  | [] => [(w, 1)]
  | (u, n) :: rest =>
    if w < u then (w, 1) :: (u, n) :: rest
    else if w = u then (u, n + 1) :: rest
    else (u, n) :: addOrdered w rest

theorem fst_of_mem_addOrdered
    {w : String} {p : String × Nat} {l : List (String × Nat)}
    (h : p ∈ addOrdered w l) :
    p.1 = w ∨ ∃ q ∈ l, q.1 = p.1 := by
  induction l with
  | nil => simp_all [addOrdered]
  | cons q rest ih =>
    obtain ⟨u, n⟩ := q
    unfold addOrdered at h
    split at h
    · grind
    · split at h <;> grind

theorem pairwise_addOrdered
    (w : String)
    {l : List (String × Nat)}
    (h : l.Pairwise fun a b => a.1 < b.1) :
    (addOrdered w l).Pairwise fun a b => a.1 < b.1 := by
  induction l with
  | nil => simp [addOrdered]
  | cons q rest ih =>
    obtain ⟨u, n⟩ := q
    obtain ⟨hu, hrest⟩ := List.pairwise_cons.1 h
    unfold addOrdered
    split
    · next hw =>
      refine List.pairwise_cons.2 ⟨fun p hp => ?_, h⟩
      rcases List.mem_cons.1 hp with rfl | hp
      · exact hw
      · exact String.lt_trans hw (hu p hp)
    · next hlt =>
      split
      · exact List.pairwise_cons.2 ⟨hu, hrest⟩
      · next hne =>
        refine List.pairwise_cons.2 ⟨fun p hp => ?_, ih hrest⟩
        rcases fst_of_mem_addOrdered hp with hp | ⟨q, hq, hp⟩
        · exact hp ▸ Decidable.byContradiction fun hn =>
            hne (String.le_antisymm (String.not_lt.1 hn) (String.not_lt.1 hlt))
        · exact hp ▸ hu q hq

def add (f : Frequency) (w : String) : Frequency :=
  ⟨addOrdered w f.counts, pairwise_addOrdered w f.ascending⟩

def ofTerms (ws : List String) : Frequency := ws.foldl add empty

/-- The number of occurrences, zero for a term that is not listed. -/
def get (f : Frequency) (w : String) : Nat := (f.counts.lookup w).getD 0

def size (f : Frequency) : Nat := f.counts.length

/-- The numbers of all rows together. -/
def total (f : Frequency) : Nat :=
  f.counts.foldr (fun (_, n) rest => n + rest) 0

def squaredNorm (f : Frequency) : Nat :=
  f.counts.foldr (fun (_, n) rest => n * n + rest) 0

/-- The two tables, one with fewer terms first. -/
def bySize (f g : Frequency) : Frequency × Frequency :=
  if f.size ≤ g.size then (f, g) else (g, f)

/-- The terms of the smaller table are looked up in the larger one. -/
def dot (f g : Frequency) : Nat :=
  let (small, large) := bySize f g
  small.counts.foldr (fun (w, n) rest => n * large.get w + rest) 0

def shared (f g : Frequency) : Nat :=
  let (small, large) := bySize f g
  (small.counts.filter fun (w, _) => large.get w != 0).length

end Frequency

end Resemblance
