import Resemblance.Text.Pattern

/-!
# A pass over two neighbouring texts

A pass over `p ++ t` is compared with the passes over `p` and over `t`.  A match
that starts in `p` either stops inside `p`, as it does without `t`, or it runs
over the boundary.  If all matches stop, the pass splits at the boundary.  If
those that run over leave the same rest of every tail, then the pass either
splits or forgets which tail it was given.
-/

namespace Resemblance.Text.Pattern

variable {q : Pattern} (s : List Char)

@[simp] theorem replace_nil : q.replace s [] = [] := rfl

theorem replace_cons_of_unmatched
    {c : Char} {t : List Char}
    (hmatch : q.matchLength (c :: t) = 0) :
    q.replace s (c :: t) = c :: q.replace s t := by
  simp only [replace, replaceFrom, hmatch]

theorem replace_of_matched
    {t : List Char}
    (hne : t ≠ [])
    (hmatch : q.matchLength t ≠ 0) :
    q.replace s t = s ++ q.replace s (t.drop (q.matchLength t)) := by
  obtain ⟨c, rest, rfl⟩ := List.exists_cons_of_ne_nil hne
  obtain ⟨n, hn⟩ := Nat.exists_eq_succ_of_ne_zero hmatch
  rw [hn, Nat.succ_eq_add_one, List.drop_succ_cons]
  unfold replace
  rw [replaceFrom, hn]
  exact congrArg (s ++ ·) (replaceFrom_eq_drop q s n rest)

theorem replace_append_of_unmatched
    {m t : List Char}
    (hmatch : ∀ x, x ≠ [] → x <:+ m → q.matchLength (x ++ t) = 0) :
    q.replace s (m ++ t) = m ++ q.replace s t := by
  induction m with
  | nil => rfl
  | cons c m ih =>
      have hhead : q.matchLength (c :: (m ++ t)) = 0 :=
        hmatch (c :: m) (List.cons_ne_nil c m) (List.suffix_refl _)
      rw [List.cons_append, replace_cons_of_unmatched s hhead, ih]
      · rfl
      · intro x hne hx
        exact hmatch x hne (hx.trans (List.suffix_cons c m))

/-- No match is longer than the text it is found in. -/
def Bounded (q : Pattern) : Prop := ∀ t, q.matchLength t ≤ t.length

/-- Whatever the tail, the match at the start of `x` is the one without it. -/
def StopsBefore
    (q : Pattern) (tails : List Char → Prop) (x : List Char) : Prop :=
  ∀ t, tails t → q.matchLength (x ++ t) = q.matchLength x

/-- Whatever the tail, the match at the start of `x` leaves the same rest of
it. -/
def RunsOver (q : Pattern) (tails : List Char → Prop) (x : List Char) : Prop :=
  ∃ rest, ∀ t, tails t →
    q.matchLength (x ++ t) ≠ 0 ∧ (x ++ t).drop (q.matchLength (x ++ t)) = rest

/-- One step of the walk: it writes the same and goes on at the same place for
every tail. -/
theorem StopsBefore.step
    {tails : List Char → Prop} {c : Char} {rest : List Char}
    (hstops : q.StopsBefore tails (c :: rest))
    (hbounded : q.Bounded) :
    ∃ out x, x <:+ rest ∧
      q.replace s (c :: rest) = out ++ q.replace s x ∧
      ∀ t, tails t →
        q.replace s (c :: rest ++ t) = out ++ q.replace s (x ++ t) := by
  by_cases hmatch : q.matchLength (c :: rest) = 0
  · refine ⟨[c], rest, List.suffix_refl rest,
      replace_cons_of_unmatched s hmatch, ?_⟩
    intro t ht
    exact replace_cons_of_unmatched s ((hstops t ht).trans hmatch)
  · obtain ⟨k, hk⟩ := Nat.exists_eq_succ_of_ne_zero hmatch
    refine ⟨s, rest.drop k, List.drop_suffix k rest, ?_, ?_⟩
    · rw [replace_of_matched s (List.cons_ne_nil c rest) hmatch, hk]
      rfl
    · intro t ht
      have hlength := hstops t ht
      rw [replace_of_matched s (by simp) (by rwa [hlength]), hlength,
        List.drop_append_of_le_length (hbounded _), hk]
      rfl

/-- A pass splits before a tail, or some match runs over and the tail leaves no
trace. -/
theorem replace_append_or_eq
    (hbounded : q.Bounded)
    {tails : List Char → Prop} {p : List Char}
    (hall : ∀ x, x ≠ [] → x <:+ p →
      q.StopsBefore tails x ∨ q.RunsOver tails x) :
    (∀ t, tails t → q.replace s (p ++ t) = q.replace s p ++ q.replace s t) ∨
      ((∃ x, x ≠ [] ∧ x <:+ p ∧ ¬ q.StopsBefore tails x) ∧
        ∃ out, ∀ t, tails t → q.replace s (p ++ t) = out) := by
  induction hn : p.length using Nat.strongRecOn generalizing p with
  | ind n ih =>
      cases p with
      | nil => exact Or.inl fun t _ => rfl
      | cons c rest =>
          by_cases hstops : q.StopsBefore tails (c :: rest)
          · obtain ⟨out, x, hx, hwhole, hstep⟩ := hstops.step s hbounded
            have hsuffix : x <:+ c :: rest := hx.trans (List.suffix_cons c rest)
            have hlength : x.length < n := by
              have hle := hx.length_le
              simp only [List.length_cons] at hn
              omega
            rcases ih x.length hlength
                (fun y hne hy => hall y hne (hy.trans hsuffix)) rfl with
              hsplit | ⟨⟨y, hne, hy, hover⟩, after, hafter⟩
            · left
              intro t ht
              rw [hstep t ht, hsplit t ht, hwhole, List.append_assoc]
            · right
              refine ⟨⟨y, hne, hy.trans hsuffix, hover⟩, out ++ after, ?_⟩
              intro t ht
              rw [hstep t ht, hafter t ht]
          · right
            obtain ⟨after, hafter⟩ :=
              (hall (c :: rest) (List.cons_ne_nil c rest)
                (List.suffix_refl _)).resolve_left hstops
            refine ⟨⟨c :: rest, List.cons_ne_nil c rest, List.suffix_refl _,
              hstops⟩, s ++ q.replace s after, ?_⟩
            intro t ht
            obtain ⟨hmatch, hdrop⟩ := hafter t ht
            rw [replace_of_matched s (by simp) hmatch, hdrop]

/-- A pass splits at a boundary that no match runs over. -/
theorem replace_append
    (hbounded : q.Bounded)
    {p t : List Char}
    (hstops : ∀ x, x ≠ [] → x <:+ p →
      q.matchLength (x ++ t) = q.matchLength x) :
    q.replace s (p ++ t) = q.replace s p ++ q.replace s t := by
  have hall : ∀ x, x ≠ [] → x <:+ p → q.StopsBefore (· = t) x := by
    rintro x hne hx _ rfl
    exact hstops x hne hx
  rcases replace_append_or_eq s hbounded
    (fun x hne hx => Or.inl (hall x hne hx)) with
      hsplit | ⟨⟨x, hne, hx, hover⟩, _⟩
  · exact hsplit t rfl
  · exact absurd (hall x hne hx) hover

end Resemblance.Text.Pattern
