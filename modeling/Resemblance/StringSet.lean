/-!
# Sets of strings

A set is its ascending list of members by code points, so equal sets are equal
values and the order in which members were added leaves no trace.
-/

namespace Resemblance

structure StringSet where
  toList : List String
  ascending : toList.Pairwise (· < ·)
  deriving DecidableEq

namespace StringSet

def empty : StringSet := ⟨[], .nil⟩

def insertOrdered (w : String) : List String → List String
  | [] => [w]
  | u :: rest =>
    if w < u then w :: u :: rest
    else if w = u then u :: rest
    else u :: insertOrdered w rest

@[simp] theorem mem_insertOrdered
    {v w : String} {l : List String} :
    v ∈ insertOrdered w l ↔ v = w ∨ v ∈ l := by
  induction l with
  | nil => simp [insertOrdered]
  | cons u rest ih =>
    unfold insertOrdered
    split
    · simp
    · split
      · next h => subst h; simp
      · simp only [List.mem_cons, ih]
        grind

theorem pairwise_insertOrdered
    (w : String)
    {l : List String}
    (h : l.Pairwise (· < ·)) :
    (insertOrdered w l).Pairwise (· < ·) := by
  induction l with
  | nil => simp [insertOrdered]
  | cons u rest ih =>
    obtain ⟨hu, hrest⟩ := List.pairwise_cons.1 h
    unfold insertOrdered
    split
    · next hw =>
      refine List.pairwise_cons.2 ⟨fun v hv => ?_, h⟩
      rcases List.mem_cons.1 hv with rfl | hv
      · exact hw
      · exact String.lt_trans hw (hu v hv)
    · split
      · exact h
      · next hlt hne =>
        refine List.pairwise_cons.2 ⟨fun v hv => ?_, ih hrest⟩
        rcases mem_insertOrdered.1 hv with rfl | hv
        · exact Decidable.byContradiction fun hn =>
            hne (String.le_antisymm (String.not_lt.1 hn) (String.not_lt.1 hlt))
        · exact hu v hv

def insert (s : StringSet) (w : String) : StringSet :=
  ⟨insertOrdered w s.toList, pairwise_insertOrdered w s.ascending⟩

def ofList (ws : List String) : StringSet := ws.foldl insert empty

def contains (s : StringSet) (w : String) : Bool := s.toList.contains w

def size (s : StringSet) : Nat := s.toList.length

/-- The members of the smaller set are looked up in the larger one. -/
def interSize (s t : StringSet) : Nat :=
  let (small, large) := if s.size ≤ t.size then (s, t) else (t, s)
  (small.toList.filter large.contains).length

theorem contains_iff
    {s : StringSet} {w : String} :
    s.contains w = true ↔ w ∈ s.toList := by
  simp [contains]

theorem contains_insert
    {s : StringSet} {v w : String} :
    (s.insert w).contains v = true ↔ v = w ∨ s.contains v = true := by
  simp [contains_iff, insert]

theorem contains_ofList
    {ws : List String} {v : String} :
    (ofList ws).contains v = true ↔ v ∈ ws := by
  suffices ∀ s : StringSet, (ws.foldl insert s).contains v = true ↔
      v ∈ ws ∨ s.contains v = true by
    simpa [ofList, contains, empty] using this empty
  induction ws with
  | nil => simp
  | cons w rest ih =>
    intro s
    simp only [List.foldl_cons, ih, contains_insert, List.mem_cons]
    grind

end StringSet

end Resemblance
