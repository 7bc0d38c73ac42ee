import Resemblance.Proofs.Text.Replacement

/-!
# Where matches end

A word that occurs over the boundary of two texts has characters on both sides
of it, which is how occurrences are kept from crossing.  From this follow the
lengths of enclosed matches and of matches up to a line end in a joined text.
-/

namespace Resemblance.Text

/-- No occurrence of `w` starts in `p` and ends in `t`. -/
def Apart (w p t : List Char) : Prop :=
  ∀ x, x ≠ [] → x <:+ p → w <+: x ++ t → w <+: x

/-- No occurrence of `w` in `m ++ t` starts in `m`. -/
def Absent (w m t : List Char) : Prop :=
  ∀ x, x ≠ [] → x <:+ m → ¬ w <+: x ++ t

theorem prefix_append_cases
    {w x t : List Char}
    (hstart : w <+: x ++ t) :
    w <+: x ∨ ∃ y, y ≠ [] ∧ w = x ++ y ∧ y <+: t := by
  rcases List.prefix_or_prefix_of_prefix hstart (List.prefix_append x t) with
    hx | ⟨y, rfl⟩
  · exact Or.inl hx
  · by_cases hy : y = []
    · left
      simp [hy]
    · exact Or.inr ⟨y, hy, rfl, (List.prefix_append_right_inj x).1 hstart⟩

theorem Apart.of_getLast?
    {w p t : List Char}
    (hlast : ∀ z ∈ p.getLast?, z ∉ w) :
    Apart w p t := by
  intro x hne hx hstart
  rcases prefix_append_cases hstart with hw | ⟨y, _, rfl, _⟩
  · exact hw
  · obtain ⟨before, rfl⟩ := hx
    have hmem : x.getLast hne ∈ (before ++ x).getLast? := by
      rw [List.getLast?_append, List.getLast?_eq_some_getLast hne]
      rfl
    exact absurd (List.mem_append_left y (List.getLast_mem hne)) (hlast _ hmem)

theorem Apart.of_head
    {w t : List Char} {z : Char}
    (hz : z ∉ w)
    (p : List Char) :
    Apart w p (z :: t) := by
  intro x _ _ hstart
  rcases prefix_append_cases hstart with hw | ⟨y, hy, rfl, hrest⟩
  · exact hw
  · obtain ⟨c, y, rfl⟩ := List.exists_cons_of_ne_nil hy
    obtain ⟨rfl, _⟩ := List.cons_prefix_cons.1 hrest
    exact absurd (by simp) hz

/-- One character cannot lie on both sides of a boundary. -/
theorem Apart.singleton (z : Char) (p t : List Char) : Apart [z] p t := by
  intro x hne _ hstart
  rcases prefix_append_cases hstart with hw | ⟨y, hy, hw, _⟩
  · exact hw
  · have hlength := congrArg List.length hw
    have hx := List.length_pos_iff.2 hne
    have hy := List.length_pos_iff.2 hy
    simp only [List.length_singleton, List.length_append] at hlength
    omega

theorem Apart.absent
    {w m t : List Char}
    (hapart : Apart w m t)
    (hnowhere : ¬ w <:+: m) :
    Absent w m t := by
  intro x hne hx hstart
  exact hnowhere ((hapart x hne hx hstart).isInfix.trans hx.isInfix)

theorem Absent.of_head_not_mem
    {z : Char} {w m t : List Char}
    (hz : z ∉ m) :
    Absent (z :: w) m t := by
  intro x hne hx hstart
  obtain ⟨c, x, rfl⟩ := List.exists_cons_of_ne_nil hne
  rw [List.cons_append, List.cons_prefix_cons] at hstart
  exact hz (hx.subset (hstart.1 ▸ List.mem_cons_self))

theorem Absent.of_not_mem
    {z d : Char} {w : List Char}
    (hd : d ∉ z :: w)
    (t : List Char) :
    Absent (z :: w) [d] t := by
  apply Absent.of_head_not_mem
  intro hz
  exact hd (List.mem_singleton.1 hz ▸ List.mem_cons_self)

theorem Absent.append
    {w m n t : List Char}
    (hm : Absent w m (n ++ t))
    (hn : Absent w n t) :
    Absent w (m ++ n) t := by
  intro x hne hx
  rcases List.suffix_or_suffix_of_suffix hx (List.suffix_append m n) with
    hxn | ⟨y, rfl⟩
  · exact hn x hne hxn
  · by_cases hy : y = []
    · subst hy
      exact hn n hne (List.suffix_refl n)
    · rw [List.append_assoc]
      exact hm y hy (List.suffix_append_self_iff.1 hx)

theorem Absent.singleton
    {w t : List Char} {z : Char}
    (hstart : ¬ w <+: z :: t) :
    Absent w [z] t := by
  intro x hne hx
  obtain rfl : x = [z] := hx.eq_of_length_le (List.length_pos_iff.2 hne)
  exact hstart

theorem absent_iff_nowhere
    {w m : List Char}
    (hw : w ≠ []) :
    Absent w m [] ↔ ¬ w <:+: m := by
  constructor
  · rintro habsent ⟨p, s, rfl⟩
    have hsuffix : w ++ s <:+ p ++ w ++ s := ⟨p, by simp⟩
    exact habsent (w ++ s) (by simp [hw]) hsuffix (by simp)
  · intro hnowhere x _ hx hstart
    rw [List.append_nil] at hstart
    exact hnowhere (hstart.isInfix.trans hx.isInfix)

theorem drop_length_takeWhile
    (f : Char → Bool)
    (t : List Char) :
    t.drop (t.takeWhile f).length = t.dropWhile f := by
  have hsplit := List.takeWhile_append_dropWhile (p := f) (l := t)
  calc t.drop (t.takeWhile f).length
      = (t.takeWhile f ++ t.dropWhile f).drop (t.takeWhile f).length := by
        rw [hsplit]
    _ = t.dropWhile f := List.drop_left

theorem ne_line_of_not_mem
    {m : List Char}
    (hline : '\n' ∉ m) :
    ∀ c ∈ m, (c != '\n') = true := by
  intro c hc
  simp only [bne_iff_ne]
  rintro rfl
  exact hline hc

theorem dropWhile_line_append
    {m : List Char}
    (hline : '\n' ∉ m)
    (t : List Char) :
    (m ++ t).dropWhile (· != '\n') = t.dropWhile (· != '\n') :=
  List.dropWhile_append_of_pos (ne_line_of_not_mem hline)

theorem mem_dropWhile_of_mem
    {z : Char} {x : List Char}
    (hz : z ∈ x) :
    z ∈ x.dropWhile (· != z) := by
  rw [← List.takeWhile_append_dropWhile (p := (· != z)) (l := x),
    List.mem_append] at hz
  refine hz.resolve_left fun htake => ?_
  have hall := List.all_takeWhile (p := (· != z)) (l := x)
  rw [List.all_eq_true] at hall
  simpa using hall z htake

theorem dropWhile_append_of_mem
    {z : Char} {x : List Char}
    (hz : z ∈ x)
    (t : List Char) :
    (x ++ t).dropWhile (· != z) = x.dropWhile (· != z) ++ t := by
  have hne := List.ne_nil_of_mem (mem_dropWhile_of_mem hz)
  rw [List.dropWhile_append, if_neg (by simpa using hne)]

theorem takeWhile_append_of_mem
    {z : Char} {x : List Char}
    (hz : z ∈ x)
    (t : List Char) :
    (x ++ t).takeWhile (· != z) = x.takeWhile (· != z) := by
  have hjoined := List.takeWhile_append_dropWhile (p := (· != z)) (l := x ++ t)
  rw [dropWhile_append_of_mem hz, ← List.append_assoc,
    List.append_left_inj] at hjoined
  have hself := List.takeWhile_append_dropWhile (p := (· != z)) (l := x)
  exact List.append_cancel_right (hjoined.trans hself.symm)

namespace Pattern

theorem lengthThrough_of_closer
    {k t : List Char}
    (hne : t ≠ [])
    (hk : k <+: t) :
    lengthThrough k t = some k.length := by
  obtain ⟨c, rest, rfl⟩ := List.exists_cons_of_ne_nil hne
  rw [lengthThrough, if_pos (List.isPrefixOf_iff_prefix.2 hk)]

theorem lengthThrough_cons_of_no_closer
    {k rest : List Char} {c : Char}
    (hk : ¬ k <+: c :: rest) :
    lengthThrough k (c :: rest) = (lengthThrough k rest).map (· + 1) := by
  rw [lengthThrough, if_neg (mt List.isPrefixOf_iff_prefix.1 hk)]

theorem lengthThrough_le
    {k t : List Char} {n : Nat}
    (hn : lengthThrough k t = some n) :
    k.length ≤ n ∧ n ≤ t.length := by
  induction t generalizing n with
  | nil => simp [lengthThrough] at hn
  | cons c rest ih =>
      by_cases hk : k <+: c :: rest
      · rw [lengthThrough_of_closer (List.cons_ne_nil c rest) hk] at hn
        have hle := hk.length_le
        grind
      · rw [lengthThrough_cons_of_no_closer hk, Option.map_eq_some_iff] at hn
        obtain ⟨m, hm, rfl⟩ := hn
        have hle := ih hm
        simp only [List.length_cons]
        omega

theorem lengthThrough_eq_none_iff {k t : List Char} :
    lengthThrough k t = none ↔ Absent k t [] := by
  induction t with
  | nil => simp_all [lengthThrough, Absent]
  | cons c rest ih =>
      by_cases hstart : k <+: c :: rest
      · rw [lengthThrough_of_closer (List.cons_ne_nil c rest) hstart]
        simp only [reduceCtorEq, false_iff]
        intro habsent
        exact habsent (c :: rest) (List.cons_ne_nil c rest)
          (List.suffix_refl _) (by simpa)
      · rw [lengthThrough_cons_of_no_closer hstart, Option.map_eq_none_iff, ih]
        constructor
        · intro habsent x hne hx
          rcases List.suffix_cons_iff.1 hx with rfl | hrest
          · simpa using hstart
          · exact habsent x hne hrest
        · intro habsent x hne hx
          exact habsent x hne (hx.trans (List.suffix_cons c rest))

theorem absent_of_lengthThrough_eq_none
    {k y t : List Char}
    (hnone : lengthThrough k y = none)
    (hapart : Apart k y t) :
    Absent k y t := by
  intro x hne hx hstart
  have hk : k <+: x := hapart x hne hx hstart
  exact lengthThrough_eq_none_iff.1 hnone x hne hx (by simpa using hk)

theorem lengthThrough_append_of_absent
    {k y t : List Char}
    (habsent : Absent k y t) :
    lengthThrough k (y ++ t) = (lengthThrough k t).map (· + y.length) := by
  induction y with
  | nil => simp
  | cons c rest ih =>
      have hhead : ¬ k <+: c :: (rest ++ t) :=
        habsent (c :: rest) (List.cons_ne_nil c rest) (List.suffix_refl _)
      have htail : Absent k rest t := fun x hne hx =>
        habsent x hne (hx.trans (List.suffix_cons c rest))
      rw [List.cons_append, lengthThrough_cons_of_no_closer hhead, ih htail,
        Option.map_map]
      rfl

theorem lengthThrough_append_of_some
    {k y t : List Char} {n : Nat}
    (hn : lengthThrough k y = some n) :
    lengthThrough k (y ++ t) = some n := by
  induction y generalizing n with
  | nil => simp [lengthThrough] at hn
  | cons c rest ih =>
      by_cases hk : k <+: c :: rest
      · rw [lengthThrough_of_closer (List.cons_ne_nil c rest) hk] at hn
        rw [lengthThrough_of_closer (by simp) (List.prefix_append_of_prefix hk),
          hn]
      · rw [lengthThrough_cons_of_no_closer hk, Option.map_eq_some_iff] at hn
        obtain ⟨m, hm, rfl⟩ := hn
        have hle := lengthThrough_le hm
        -- A closer that ends behind `y` would be longer than the one found in
        -- `rest`.
        have hhead : ¬ k <+: c :: (rest ++ t) := by
          intro hstart
          apply hk
          apply List.prefix_of_prefix_length_le hstart
            (List.prefix_append (c :: rest) t)
          simp only [List.length_cons]
          omega
        rw [List.cons_append, lengthThrough_cons_of_no_closer hhead, ih hm]
        rfl

theorem matchLength_enclosed_of_no_opener
    {o k t : List Char}
    (ho : ¬ o <+: t) :
    (enclosed o k).matchLength t = 0 :=
  if_neg (mt List.isPrefixOf_iff_prefix.1 ho)

theorem matchLength_enclosed_of_opener
    {o k t : List Char}
    (ho : o <+: t) :
    (enclosed o k).matchLength t =
      ((lengthThrough k (t.drop o.length)).map (o.length + ·)).getD 0 := by
  simp only [enclosed, List.isPrefixOf_iff_prefix.2 ho, if_true]
  cases lengthThrough k (t.drop o.length) <;> rfl

theorem matchLength_enclosed_append
    {o k x : List Char}
    (ho : o <+: x)
    (y : List Char) :
    (enclosed o k).matchLength (x ++ y) =
      ((lengthThrough k (x.drop o.length ++ y)).map (o.length + ·)).getD 0 := by
  rw [matchLength_enclosed_of_opener (List.prefix_append_of_prefix ho),
    List.drop_append_of_le_length ho.length_le]

theorem bounded_enclosed (o k : List Char) : (enclosed o k).Bounded := by
  intro t
  by_cases ho : o <+: t
  · rw [matchLength_enclosed_of_opener ho]
    cases hn : lengthThrough k (t.drop o.length) with
    | none => exact Nat.zero_le _
    | some n =>
        have hle := lengthThrough_le hn
        have hopener := ho.length_le
        simp only [Option.map_some, Option.getD_some]
        rw [List.length_drop] at hle
        omega
  · rw [matchLength_enclosed_of_no_opener ho]
    exact Nat.zero_le _

theorem matchLength_toLineEnd_of_no_marker
    {marker t : List Char}
    (hmarker : ¬ marker <+: t) :
    (toLineEnd marker).matchLength t = 0 :=
  if_neg (mt List.isPrefixOf_iff_prefix.1 hmarker)

theorem matchLength_toLineEnd_of_marker
    {marker t : List Char}
    (hmarker : marker <+: t) :
    (toLineEnd marker).matchLength t = (t.takeWhile (· != '\n')).length :=
  if_pos (List.isPrefixOf_iff_prefix.2 hmarker)

theorem bounded_toLineEnd (marker : List Char) :
    (toLineEnd marker).Bounded := by
  intro t
  by_cases hmarker : marker <+: t
  · rw [matchLength_toLineEnd_of_marker hmarker]
    exact (List.takeWhile_prefix _).length_le
  · rw [matchLength_toLineEnd_of_no_marker hmarker]
    exact Nat.zero_le _

theorem findAll_cons_of_unmatched
    {q : Pattern} {c : Char} {t : List Char}
    (hmatch : q.matchLength (c :: t) = 0) :
    q.findAll (c :: t) = q.findAll t := by
  simp only [findAll, findAllFrom, hmatch]

theorem findAll_of_matched
    {q : Pattern} {t : List Char}
    (hne : t ≠ [])
    (hmatch : q.matchLength t ≠ 0) :
    q.findAll t =
      t.take (q.matchLength t) :: q.findAll (t.drop (q.matchLength t)) := by
  obtain ⟨c, rest, rfl⟩ := List.exists_cons_of_ne_nil hne
  obtain ⟨n, hn⟩ := Nat.exists_eq_succ_of_ne_zero hmatch
  rw [hn, Nat.succ_eq_add_one, List.drop_succ_cons]
  unfold findAll
  rw [findAllFrom, hn]
  exact congrArg (_ :: ·) (findAllFrom_eq_drop q n rest)

/-- A text is walked one character or one match at a time. -/
@[elab_as_elim]
theorem walk_induction
    {motive : List Char → Prop}
    (q : Pattern)
    (nil : motive [])
    (unmatched : ∀ c t, q.matchLength (c :: t) = 0 → motive t → motive (c :: t))
    (matched : ∀ t, t ≠ [] → q.matchLength t ≠ 0 →
      motive (t.drop (q.matchLength t)) →
      motive t)
    (t : List Char) :
    motive t := by
  induction hn : t.length using Nat.strongRecOn generalizing t with
  | ind n ih =>
      cases t with
      | nil => exact nil
      | cons c t =>
          rw [List.length_cons] at hn
          by_cases hmatch : q.matchLength (c :: t) = 0
          · exact unmatched c t hmatch (ih t.length (by omega) t rfl)
          · refine matched (c :: t) (List.cons_ne_nil c t)
              hmatch (ih _ ?_ _ rfl)
            rw [List.length_drop, List.length_cons]
            omega

end Pattern

end Resemblance.Text
