import Resemblance.Proofs.Text.Joining

/-!
# Texts taken apart into blocks

A block runs from an opener to the first closer behind it, and the search goes
on behind the block.  Every text falls in exactly one way into blocks and the
plain text around them, if each block starts at the first opener and ends at the
first closer, and no block is left in the plain text behind the last one.  A
pass over the blocks keeps the plain text.
-/

namespace Resemblance.Text

/-- The only occurrence of `w` in `m ++ w` is the one at the end. -/
def OnlyAtEnd (w m : List Char) : Prop :=
  ∀ p s, m ++ w = p ++ w ++ s → s = []

section FirstOccurrence

variable {w p q s t : List Char}

theorem onlyAtEnd_nil (w : List Char) : OnlyAtEnd w [] := by
  intro p s h
  have hlength := congrArg List.length h
  simp only [List.length_append, List.length_nil] at hlength
  exact List.length_eq_zero_iff.1 (by omega)

theorem onlyAtEnd_cons
    {c : Char}
    (hstart : ¬ w <+: c :: (p ++ w))
    (hp : OnlyAtEnd w p) :
    OnlyAtEnd w (c :: p) := by
  intro q s h
  cases q with
  | nil => exact absurd ⟨s, h.symm⟩ hstart
  | cons d q =>
      simp only [List.cons_append, List.cons.injEq] at h
      exact hp q s h.2

theorem onlyAtEnd_of_head_not_mem
    {z : Char}
    (hz : z ∉ p) :
    OnlyAtEnd (z :: w) p := by
  induction p with
  | nil => exact onlyAtEnd_nil _
  | cons c p ih =>
      rw [List.mem_cons, not_or] at hz
      exact onlyAtEnd_cons (by simp [hz.1]) (ih hz.2)

/-- A word of two different characters does not overlap with itself. -/
theorem onlyAtEnd_of_nowhere
    {y z : Char}
    (hne : y ≠ z)
    (hp : ¬ [y, z] <:+: p) :
    OnlyAtEnd [y, z] p := by
  induction p with
  | nil => exact onlyAtEnd_nil _
  | cons c p ih =>
      rw [List.infix_cons_iff, not_or] at hp
      apply onlyAtEnd_cons _ (ih hp.2)
      cases p with
      | nil => simp [hne.symm]
      | cons d p =>
          intro hstart
          simp only [List.cons_append, List.cons_prefix_cons, List.nil_prefix,
            and_true] at hstart
          exact hp.1 (by simp [hstart])

theorem OnlyAtEnd.absent
    (hp : OnlyAtEnd w p)
    (t : List Char) :
    Absent w p (w ++ t) := by
  rintro x hne ⟨y, rfl⟩ hstart
  have hprefix : w <+: x ++ w := by
    apply List.prefix_of_prefix_length_le hstart
    · simp
    · simp
  rcases hprefix with ⟨z, hz⟩
  obtain rfl := hp y z (by simp [hz])
  simp_all

theorem OnlyAtEnd.length_le
    (hp : OnlyAtEnd w p)
    (h : p ++ w ++ s = q ++ w ++ t) :
    p.length ≤ q.length := by
  apply Nat.le_of_not_lt
  intro hlonger
  have hearlier : q ++ w <+: p ++ w ++ s := ⟨t, h.symm⟩
  have hlater : p ++ w <+: p ++ w ++ s := List.prefix_append _ _
  have hprefix : q ++ w <+: p ++ w := by
    apply List.prefix_of_prefix_length_le hearlier hlater
    simp only [List.length_append]
    omega
  rcases hprefix with ⟨z, hz⟩
  obtain rfl := hp q z hz.symm
  simp_all

theorem OnlyAtEnd.unique
    (hp : OnlyAtEnd w p)
    (hq : OnlyAtEnd w q)
    (h : p ++ w ++ s = q ++ w ++ t) :
    p = q ∧ s = t := by
  have hlength : p.length = q.length :=
    Nat.le_antisymm (hp.length_le h) (hq.length_le h.symm)
  simp only [List.append_assoc] at h
  rcases List.append_inj h hlength with ⟨rfl, hrest⟩
  exact ⟨rfl, List.append_cancel_left hrest⟩

/-- The first occurrence leaves the most behind it. -/
theorem OnlyAtEnd.suffix
    (hp : OnlyAtEnd w p)
    (h : p ++ w ++ s = q ++ w ++ t) :
    t <:+ s := by
  have hlength := hp.length_le h
  have hsame := congrArg List.length h
  simp only [List.length_append] at hsame
  have ht : t <:+ p ++ w ++ s := ⟨q ++ w, h.symm⟩
  have hs : s <:+ p ++ w ++ s := List.suffix_append _ _
  exact List.suffix_of_suffix_length_le ht hs (by omega)

theorem exists_onlyAtEnd (hw : w <:+: t) :
    ∃ p s, t = p ++ w ++ s ∧ OnlyAtEnd w p := by
  induction t with
  | nil =>
      obtain rfl := List.infix_nil.1 hw
      exact ⟨[], [], rfl, onlyAtEnd_nil []⟩
  | cons c t ih =>
      by_cases hstart : w <+: c :: t
      · rcases hstart with ⟨s, hs⟩
        exact ⟨[], s, by simp [hs], onlyAtEnd_nil w⟩
      · rcases ih ((List.infix_cons_iff.1 hw).resolve_left hstart) with
          ⟨p, s, rfl, hp⟩
        refine ⟨c :: p, s, by simp, onlyAtEnd_cons ?_ hp⟩
        intro hearlier
        exact hstart (hearlier.trans ⟨s, by simp⟩)

end FirstOccurrence

/-- A closer behind any opener is behind the first one. -/
theorem OnlyAtEnd.closer_behind
    {o k u r p m s : List Char}
    (hu : OnlyAtEnd o u)
    (h : u ++ o ++ r = p ++ o ++ m ++ k ++ s) :
    k <:+: r := by
  have hbehind : m ++ k ++ s <:+ r := hu.suffix (q := p) (by simpa using h)
  exact List.IsInfix.trans ⟨m, s, rfl⟩ hbehind.isInfix

/-- Plain text and the inside of the block behind it. -/
structure Block where
  before : List Char
  inside : List Char

/-- Blocks and the plain text behind the last one. -/
structure Decomposition where
  blocks : List Block
  rest : List Char

namespace Decomposition

/-- The text that is taken apart. -/
def text (o k : List Char) (d : Decomposition) : List Char :=
  d.blocks.flatMap (fun b => b.before ++ o ++ b.inside ++ k) ++ d.rest

def plain (d : Decomposition) : List Char :=
  d.blocks.flatMap Block.before ++ d.rest

/-- Every block starts at the first opener and ends at the first closer, and
none is left over. -/
structure IsLeftmost (o k t : List Char) (d : Decomposition) : Prop where
  text_eq : d.text o k = t
  opener : ∀ b ∈ d.blocks, OnlyAtEnd o b.before
  closer : ∀ b ∈ d.blocks, OnlyAtEnd k b.inside
  rest : ∀ p m s, d.rest ≠ p ++ o ++ m ++ k ++ s

variable {o k t : List Char} {d : Decomposition}

theorem isLeftmost_nil_iff {rest : List Char} :
    IsLeftmost o k t ⟨[], rest⟩ ↔
      rest = t ∧ ∀ p m s, t ≠ p ++ o ++ m ++ k ++ s := by
  constructor
  · rintro ⟨rfl, -, -, hrest⟩
    exact ⟨rfl, hrest⟩
  · rintro ⟨rfl, hrest⟩
    exact ⟨rfl, by simp, by simp, hrest⟩

theorem isLeftmost_cons_iff
    {b : Block} {bs : List Block} {rest : List Char} :
    IsLeftmost o k t ⟨b :: bs, rest⟩ ↔
      ∃ t', t = b.before ++ o ++ (b.inside ++ k ++ t') ∧ OnlyAtEnd o b.before ∧
        OnlyAtEnd k b.inside ∧ IsLeftmost o k t' ⟨bs, rest⟩ := by
  constructor
  · rintro ⟨rfl, hopener, hcloser, hrest⟩
    simp only [List.forall_mem_cons] at hopener hcloser
    exact ⟨_, by simp [text], hopener.1, hcloser.1, rfl, hopener.2, hcloser.2,
      hrest⟩
  · rintro ⟨t', rfl, hopener, hcloser, rfl, hopeners, hclosers, hrest⟩
    exact ⟨by simp [text], by simp_all, by simp_all, hrest⟩

theorem IsLeftmost.unique
    {d' : Decomposition}
    (hd : d.IsLeftmost o k t)
    (hd' : d'.IsLeftmost o k t) :
    d = d' := by
  rcases d with ⟨bs, rest⟩
  rcases d' with ⟨bs', rest'⟩
  induction bs generalizing t bs' with
  | nil =>
      rcases isLeftmost_nil_iff.1 hd with ⟨rfl, hnone⟩
      cases bs' with
      | nil => rw [(isLeftmost_nil_iff.1 hd').1]
      | cons b' bs' =>
          rcases isLeftmost_cons_iff.1 hd' with ⟨t', htext, -⟩
          exact absurd htext (by simpa using hnone b'.before b'.inside t')
  | cons b bs ih =>
      rcases isLeftmost_cons_iff.1 hd with ⟨u, rfl, hopener, hcloser, hrest⟩
      cases bs' with
      | nil =>
          have hnone := (isLeftmost_nil_iff.1 hd').2 b.before b.inside u
          simp at hnone
      | cons b' bs' =>
          rcases isLeftmost_cons_iff.1 hd' with
            ⟨u', htext, hopener', hcloser', hrest'⟩
          rcases hopener.unique hopener' htext with ⟨hbefore, hbehind⟩
          rcases hcloser.unique hcloser' hbehind with ⟨hinside, rfl⟩
          have htails := ih hrest bs' hrest'
          rcases b with ⟨before, inside⟩
          rcases b' with ⟨before', inside'⟩
          simp_all

theorem exists_isLeftmost
    (ho : o ≠ [])
    (t : List Char) :
    ∃ d : Decomposition, d.IsLeftmost o k t := by
  induction hn : t.length using Nat.strongRecOn generalizing t with
  | ind n ih =>
      by_cases hblock : ∃ p m s, t = p ++ o ++ m ++ k ++ s
      · rcases hblock with ⟨p, m, s, hblock⟩
        have hopener : o <:+: t := ⟨p, m ++ k ++ s, by simp [hblock]⟩
        rcases exists_onlyAtEnd hopener with ⟨u, r, rfl, hu⟩
        rcases exists_onlyAtEnd (hu.closer_behind hblock) with ⟨v, x, rfl, hv⟩
        have hshorter : x.length < n := by
          have hpos := List.length_pos_iff.2 ho
          simp only [List.length_append] at hn
          omega
        rcases ih x.length hshorter x rfl with ⟨d, hd⟩
        exact ⟨⟨⟨u, v⟩ :: d.blocks, d.rest⟩,
          isLeftmost_cons_iff.2 ⟨x, rfl, hu, hv, hd⟩⟩
      · simp only [not_exists] at hblock
        exact ⟨⟨[], t⟩, isLeftmost_nil_iff.2 ⟨rfl, hblock⟩⟩

end Decomposition

namespace Pattern

variable {o k : List Char} (s : List Char)

/-- A pass writes `s` for the first block and goes on behind it. -/
theorem replace_enclosed_block
    {u m : List Char}
    (ho : o ≠ [])
    (hk : k ≠ [])
    (hu : OnlyAtEnd o u)
    (hm : OnlyAtEnd k m)
    (t : List Char) :
    (enclosed o k).replace s (u ++ o ++ (m ++ k ++ t)) =
      u ++ (s ++ (enclosed o k).replace s t) := by
  have hcloser : lengthThrough k (m ++ (k ++ t)) =
      some (k.length + m.length) := by
    rw [lengthThrough_append_of_absent (hm.absent t),
      lengthThrough_of_closer (by simp [hk]) (List.prefix_append k t),
      Option.map_some]
  have hlength : (enclosed o k).matchLength (o ++ (m ++ (k ++ t))) =
      o.length + (k.length + m.length) := by
    rw [matchLength_enclosed_of_opener (List.prefix_append _ _), List.drop_left,
      hcloser]
    rfl
  have hmatch : (enclosed o k).matchLength (o ++ (m ++ (k ++ t))) ≠ 0 := by
    have hpos := List.length_pos_iff.2 ho
    omega
  have hrest : (o ++ (m ++ (k ++ t))).drop (o.length + (k.length + m.length)) =
      t := by
    rw [Nat.add_comm k.length, ← Nat.add_assoc, ← List.drop_drop,
      ← List.drop_drop, List.drop_left, List.drop_left, List.drop_left]
  have hbefore : ∀ x, x ≠ [] → x <:+ u →
      (enclosed o k).matchLength (x ++ (o ++ (m ++ (k ++ t)))) = 0 :=
    fun x hne hx => matchLength_enclosed_of_no_opener (hu.absent _ x hne hx)
  rw [List.append_assoc, List.append_assoc,
    replace_append_of_unmatched s hbefore,
    replace_of_matched s (by simp [ho]) hmatch, hlength, hrest]

/-- An opener without a closer behind it is plain text. -/
theorem replace_enclosed_of_no_block
    {t : List Char}
    (hnone : ∀ p m r, t ≠ p ++ o ++ m ++ k ++ r) :
    (enclosed o k).replace s t = t := by
  apply replace_of_unmatched
  rintro x - ⟨p, rfl⟩
  by_cases hopener : o <+: x
  · rcases hopener with ⟨y, rfl⟩
    have hopen : lengthThrough k y = none := by
      rw [lengthThrough_eq_none_iff]
      rintro z - ⟨m, rfl⟩ hcloser
      rw [List.append_nil] at hcloser
      rcases hcloser with ⟨r, rfl⟩
      exact hnone p m r (by simp)
    rw [matchLength_enclosed_of_opener (List.prefix_append o y), List.drop_left,
      hopen]
    rfl
  · exact matchLength_enclosed_of_no_opener hopener

theorem replace_enclosed_eq_plain
    {t : List Char} {d : Decomposition}
    (ho : o ≠ [])
    (hk : k ≠ [])
    (hd : d.IsLeftmost o k t) :
    (enclosed o k).replace [] t = d.plain := by
  rcases d with ⟨bs, rest⟩
  induction bs generalizing t with
  | nil =>
      rcases Decomposition.isLeftmost_nil_iff.1 hd with ⟨rfl, hnone⟩
      simp [replace_enclosed_of_no_block [] hnone, Decomposition.plain]
  | cons b bs ih =>
      rcases Decomposition.isLeftmost_cons_iff.1 hd with
        ⟨t', rfl, hopener, hcloser, hrest⟩
      rw [replace_enclosed_block [] ho hk hopener hcloser, ih hrest]
      simp [Decomposition.plain]

end Pattern

end Resemblance.Text
