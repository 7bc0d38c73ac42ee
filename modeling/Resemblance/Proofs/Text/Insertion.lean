import Resemblance.Proofs.Text.Match

/-!
# Passes over two texts that differ in one place

Two texts agree up to a middle, `m` in one and `n` in the other.  A pass treats
the middles alike if it keeps both, with the same text before and the same text
behind, or keeps neither.  Passes that remove enclosed texts or line ends treat
middles alike when nothing they look for lies in a middle or across its ends.
-/

namespace Resemblance.Text

/-- The pass `f` works on `p` by itself and keeps the middle, or the middle
leaves no trace. -/
def TreatsAlike (f : List Char → List Char) (p t m n : List Char) : Prop :=
  (∃ t', f (p ++ (m ++ t)) = f p ++ (m ++ t') ∧
    f (p ++ (n ++ t)) = f p ++ (n ++ t')) ∨
    f (p ++ (m ++ t)) = f (p ++ (n ++ t))

theorem TreatsAlike.comp
    {f g : List Char → List Char} {p t m n : List Char}
    (hf : TreatsAlike f p t m n)
    (hg : ∀ t', TreatsAlike g (f p) t' m n) :
    TreatsAlike (g ∘ f) p t m n := by
  rcases hf with ⟨t', hm, hn⟩ | heq
  · simp only [TreatsAlike, Function.comp_apply, hm, hn]
    exact hg t'
  · exact Or.inr (congrArg g heq)

/-- Behind the middle `m`, which holds no part of `w`, a search for `w` starts
afresh. -/
structure Insulated (w p m t : List Char) : Prop where
  before : Apart w p (m ++ t)
  within : Absent w m t

theorem Insulated.of_head
    {w m t : List Char} {z : Char}
    (hz : z ∉ w)
    (hwithin : Absent w (z :: m) t)
    (p : List Char) :
    Insulated w p (z :: m) t :=
  ⟨Apart.of_head hz p, hwithin⟩

theorem Insulated.lengthThrough_append
    {k p m t x : List Char}
    (hins : Insulated k p m t)
    (hx : x <:+ p)
    (hnone : Pattern.lengthThrough k x = none) :
    Pattern.lengthThrough k (x ++ (m ++ t)) =
      (Pattern.lengthThrough k t).map (· + (m.length + x.length)) := by
  have habsent : Absent k x (m ++ t) := by
    apply Pattern.absent_of_lengthThrough_eq_none hnone
    intro y hne hy
    exact hins.before y hne (hy.trans hx)
  rw [Pattern.lengthThrough_append_of_absent habsent,
    Pattern.lengthThrough_append_of_absent hins.within, Option.map_map]
  congr 1
  funext i
  simp only [Function.comp_apply]
  omega

namespace Pattern

theorem replace_treatsAlike
    {q : Pattern}
    (s : List Char)
    (hbounded : q.Bounded)
    {p t m n : List Char}
    (hall : ∀ x, x ≠ [] → x <:+ p →
      q.StopsBefore (fun y => y = m ++ t ∨ y = n ++ t) x ∨
        q.RunsOver (fun y => y = m ++ t ∨ y = n ++ t) x)
    (hm : ∀ x, x ≠ [] → x <:+ m → q.matchLength (x ++ t) = 0)
    (hn : ∀ x, x ≠ [] → x <:+ n → q.matchLength (x ++ t) = 0) :
    TreatsAlike (q.replace s) p t m n := by
  rcases replace_append_or_eq s hbounded hall with hsplit | ⟨_, out, hout⟩
  · left
    refine ⟨q.replace s t, ?_, ?_⟩
    · rw [hsplit _ (Or.inl rfl), replace_append_of_unmatched s hm]
    · rw [hsplit _ (Or.inr rfl), replace_append_of_unmatched s hn]
  · right
    rw [hout _ (Or.inl rfl), hout _ (Or.inr rfl)]

/-- A block that is open at `p` is closed by the first closer behind the middle,
if any. -/
theorem stopsBefore_or_runsOver_enclosed
    {o k p t x : List Char} {tails : List Char → Prop}
    (htails : ∀ y, tails y →
      ∃ z, y = z ++ t ∧ Insulated o p z t ∧ Insulated k p z t)
    (hne : x ≠ [])
    (hx : x <:+ p) :
    (enclosed o k).StopsBefore tails x ∨ (enclosed o k).RunsOver tails x := by
  by_cases hopener : o <+: x
  · have hself := matchLength_enclosed_of_opener (k := k) hopener
    cases hclosed : lengthThrough k (x.drop o.length) with
    | some i =>
        left
        intro y _
        rw [matchLength_enclosed_append hopener,
          lengthThrough_append_of_some hclosed, hself, hclosed]
    | none =>
        have hbehind : ∀ z, Insulated k p z t →
            (enclosed o k).matchLength (x ++ (z ++ t)) =
              ((lengthThrough k t).map ((x ++ z).length + ·)).getD 0 := by
          intro z hins
          have hle := hopener.length_le
          rw [matchLength_enclosed_append hopener,
            hins.lengthThrough_append ((List.drop_suffix _ _).trans hx) hclosed,
            Option.map_map]
          congr 2
          funext i
          simp only [Function.comp_apply, List.length_append, List.length_drop]
          omega
        cases hlate : lengthThrough k t with
        | none =>
            left
            intro y hy
            obtain ⟨z, rfl, _, hins⟩ := htails y hy
            rw [hbehind z hins, hlate, hself, hclosed]
            rfl
        | some i =>
            right
            refine ⟨t.drop i, fun y hy => ?_⟩
            obtain ⟨z, rfl, _, hins⟩ := htails y hy
            have hpositive := List.length_pos_iff.2 hne
            rw [hbehind z hins, hlate, Option.map_some, Option.getD_some,
              ← List.append_assoc, List.drop_length_add_append]
            refine ⟨?_, rfl⟩
            rw [List.length_append]
            omega
  · left
    intro y hy
    obtain ⟨z, rfl, hins, _⟩ := htails y hy
    have hjoined : ¬ o <+: x ++ (z ++ t) := fun hstart =>
      hopener (hins.before x hne hx hstart)
    rw [matchLength_enclosed_of_no_opener hjoined,
      matchLength_enclosed_of_no_opener hopener]

theorem enclosed_treatsAlike
    (s : List Char)
    {o k p t m n : List Char}
    (hom : Insulated o p m t)
    (hon : Insulated o p n t)
    (hkm : Insulated k p m t)
    (hkn : Insulated k p n t) :
    TreatsAlike ((enclosed o k).replace s) p t m n := by
  apply replace_treatsAlike s (bounded_enclosed o k)
  · intro x hne hx
    refine stopsBefore_or_runsOver_enclosed (t := t) ?_ hne hx
    rintro y (rfl | rfl)
    · exact ⟨m, rfl, hom, hkm⟩
    · exact ⟨n, rfl, hon, hkn⟩
  · intro x hne hx
    exact matchLength_enclosed_of_no_opener (hom.within x hne hx)
  · intro x hne hx
    exact matchLength_enclosed_of_no_opener (hon.within x hne hx)

/-- A pass splits before a tail without a closer. -/
theorem enclosed_replace_append
    (s : List Char)
    {o k p t : List Char}
    (ho : Apart o p t)
    (hk : Apart k p t)
    (hnone : lengthThrough k t = none) :
    (enclosed o k).replace s (p ++ t) =
      (enclosed o k).replace s p ++ (enclosed o k).replace s t := by
  apply replace_append s (bounded_enclosed o k)
  intro x hne hx
  by_cases hopener : o <+: x
  · rw [matchLength_enclosed_append hopener,
      matchLength_enclosed_of_opener hopener]
    cases hclosed : lengthThrough k (x.drop o.length) with
    | some i => rw [lengthThrough_append_of_some hclosed]
    | none =>
        have habsent : Absent k (x.drop o.length) t := by
          apply absent_of_lengthThrough_eq_none hclosed
          intro y hne hy
          exact hk y hne (hy.trans ((List.drop_suffix _ _).trans hx))
        rw [lengthThrough_append_of_absent habsent, hnone]
        rfl
  · rw [matchLength_enclosed_of_no_opener (mt (ho x hne hx) hopener),
      matchLength_enclosed_of_no_opener hopener]

/-- A last character that is in no opener and in no closer stays where it is. -/
theorem enclosed_replace_concat
    (s : List Char)
    {o k p : List Char} {z : Char}
    (hone : o ≠ [])
    (hkne : k ≠ [])
    (ho : z ∉ o)
    (hk : z ∉ k) :
    (enclosed o k).replace s (p ++ [z]) =
      (enclosed o k).replace s p ++ [z] := by
  have hstart : ∀ {w : List Char}, w ≠ [] → z ∉ w → ¬ w <+: [z] := by
    intro w hne hz hw
    obtain ⟨c, w, rfl⟩ := List.exists_cons_of_ne_nil hne
    rw [List.cons_prefix_cons] at hw
    exact hz (hw.1 ▸ List.mem_cons_self)
  have hnone : lengthThrough k [z] = none := by
    rw [lengthThrough_cons_of_no_closer (hstart hkne hk)]
    rfl
  rw [enclosed_replace_append s (Apart.of_head ho p) (Apart.of_head hk p) hnone,
    replace_cons_of_unmatched s
      (matchLength_enclosed_of_no_opener (hstart hone ho))]
  rfl

/-- A line match in `p` that reaches the middle goes on to the line end behind
it. -/
theorem stopsBefore_or_runsOver_toLineEnd
    {marker p t x : List Char} {tails : List Char → Prop}
    (htails : ∀ y, tails y → Apart marker p y ∧
      y.dropWhile (· != '\n') = t)
    (hne : x ≠ [])
    (hx : x <:+ p) :
    (toLineEnd marker).StopsBefore tails x ∨
      (toLineEnd marker).RunsOver tails x := by
  by_cases hmarker : marker <+: x
  · have hjoined : ∀ y, (toLineEnd marker).matchLength (x ++ y) =
        ((x ++ y).takeWhile (· != '\n')).length := fun y =>
      matchLength_toLineEnd_of_marker (List.prefix_append_of_prefix hmarker)
    by_cases hline : '\n' ∈ x
    · left
      intro y _
      rw [hjoined, takeWhile_append_of_mem hline,
        matchLength_toLineEnd_of_marker hmarker]
    · right
      refine ⟨t, fun y hy => ?_⟩
      have hall := ne_line_of_not_mem hline
      rw [hjoined]
      constructor
      · rw [List.takeWhile_append_of_pos hall, List.length_append]
        have hpositive := List.length_pos_iff.2 hne
        omega
      · rw [drop_length_takeWhile, List.dropWhile_append_of_pos hall]
        exact (htails y hy).2
  · left
    intro y hy
    have hjoined : ¬ marker <+: x ++ y := fun hstart =>
      hmarker ((htails y hy).1 x hne hx hstart)
    rw [matchLength_toLineEnd_of_no_marker hjoined,
      matchLength_toLineEnd_of_no_marker hmarker]

theorem toLineEnd_treatsAlike
    (s : List Char)
    {marker p t m n : List Char}
    (hm : Insulated marker p m t)
    (hn : Insulated marker p n t)
    (hlineM : '\n' ∉ m)
    (hlineN : '\n' ∉ n) :
    TreatsAlike ((toLineEnd marker).replace s) p t m n := by
  apply replace_treatsAlike s (bounded_toLineEnd marker)
  · intro x hne hx
    refine stopsBefore_or_runsOver_toLineEnd
      (t := t.dropWhile (· != '\n')) ?_ hne hx
    rintro y (rfl | rfl)
    · exact ⟨hm.before, dropWhile_line_append hlineM t⟩
    · exact ⟨hn.before, dropWhile_line_append hlineN t⟩
  · intro x hne hx
    exact matchLength_toLineEnd_of_no_marker (hm.within x hne hx)
  · intro x hne hx
    exact matchLength_toLineEnd_of_no_marker (hn.within x hne hx)

/-- What a marker starts on its line is removed as if it had never been
written. -/
theorem toLineEnd_replace_insert
    {marker p c : List Char}
    (hne : marker ≠ [])
    (hline : '\n' ∉ marker ++ c)
    (hapart : ∀ y, Apart marker p y)
    (t : List Char) :
    (toLineEnd marker).replace [] (p ++ (marker ++ c ++ '\n' :: t)) =
      (toLineEnd marker).replace [] (p ++ '\n' :: t) := by
  have hbehind : (marker ++ c ++ '\n' :: t).dropWhile (· != '\n') =
      '\n' :: t := by
    rw [dropWhile_line_append hline]
    simp
  have hcomment : (toLineEnd marker).replace [] (marker ++ c ++ '\n' :: t) =
      (toLineEnd marker).replace [] ('\n' :: t) := by
    have hmarker : marker <+: marker ++ c ++ '\n' :: t := by simp
    have hlength := matchLength_toLineEnd_of_marker hmarker
    have hmatch : (toLineEnd marker).matchLength (marker ++ c ++ '\n' :: t) ≠
        0 := by
      have hpositive := List.length_pos_iff.2 hne
      rw [hlength, List.takeWhile_append_of_pos (ne_line_of_not_mem hline)]
      simp only [List.length_append]
      omega
    rw [replace_of_matched [] (by simp [hne]) hmatch, hlength,
      drop_length_takeWhile, hbehind, List.nil_append]
  have hall : ∀ x, x ≠ [] → x <:+ p →
      (toLineEnd marker).StopsBefore
          (fun y => y = marker ++ c ++ '\n' :: t ∨ y = '\n' :: t) x ∨
        (toLineEnd marker).RunsOver
          (fun y => y = marker ++ c ++ '\n' :: t ∨ y = '\n' :: t) x := by
    intro x hx hsuffix
    refine stopsBefore_or_runsOver_toLineEnd (t := '\n' :: t) ?_ hx hsuffix
    rintro y (rfl | rfl)
    · exact ⟨hapart _, hbehind⟩
    · exact ⟨hapart _, by simp⟩
  rcases replace_append_or_eq [] (bounded_toLineEnd marker) hall with
    hsplit | ⟨_, out, hout⟩
  · rw [hsplit _ (Or.inl rfl), hsplit _ (Or.inr rfl), hcomment]
  · rw [hout _ (Or.inl rfl), hout _ (Or.inr rfl)]

end Pattern

end Resemblance.Text
