import Resemblance.Proofs.Text.Match
import Resemblance.Text.Split

/-!
# Joined parts

Parts that do not hold the separator can be read off the text that joins them.
The same goes for the matches of a pattern if every part is one match and the
separator ends it, and a word that starts neither in a part nor at a separator
occurs nowhere in the joined text.
-/

namespace Resemblance.Text

variable {z : Char} {ws : List (List Char)}

theorem splitAt_eq_splitOn
    (z : Char)
    (t : List Char) :
    splitAt z t = t.splitOn z := by
  induction t with
  | nil => rfl
  | cons c t ih =>
      rw [List.splitOn_cons_eq_if_modifyHead, ← ih, splitAt]
      split
      · rfl
      · cases hparts : splitAt z t with
        | nil => exact absurd hparts (splitAt_ne_nil z t)
        | cons part parts => rfl

theorem splitAt_intercalate
    (hws : ∀ w ∈ ws, z ∉ w)
    (hne : ws ≠ []) :
    splitAt z ([z].intercalate ws) = ws := by
  rw [splitAt_eq_splitOn, List.splitOn_intercalate z hws hne]

theorem splitAt_of_not_mem
    {t : List Char}
    (ht : z ∉ t) :
    splitAt z t = [t] := by
  have hwhole : splitAt z ([z].intercalate [t]) = [t] :=
    splitAt_intercalate (by simpa using ht) (by simp)
  rwa [List.intercalate_singleton] at hwhole

theorem intercalate_splitAt
    (z : Char)
    (t : List Char) :
    [z].intercalate (splitAt z t) = t := by
  rw [splitAt_eq_splitOn, List.intercalate_splitOn]

theorem not_mem_of_mem_splitAt
    {t part : List Char}
    (hpart : part ∈ splitAt z t) :
    z ∉ part := by
  induction t generalizing part with
  | nil => simp_all [splitAt]
  | cons c t ih =>
      by_cases hc : c = z
      · simp only [splitAt, hc, beq_self_eq_true, if_true,
          List.mem_cons] at hpart
        rcases hpart with rfl | hpart
        · simp
        · exact ih hpart
      · cases hparts : splitAt z t with
        | nil => exact absurd hparts (splitAt_ne_nil z t)
        | cons first parts =>
            simp only [splitAt, hc, hparts, beq_iff_eq, if_false,
              List.mem_cons] at hpart ih
            rcases hpart with rfl | hpart
            · simp [ih (.inl rfl), Ne.symm hc]
            · exact ih (.inr hpart)

/-- What is added behind the last separator belongs to the last part. -/
theorem exists_splitAt_append
    {u : List Char}
    (hu : z ∉ u)
    (t : List Char) :
    ∃ parts last, splitAt z (t ++ u) = parts ++ [last ++ u] := by
  induction t with
  | nil => exact ⟨[], [], splitAt_of_not_mem hu⟩
  | cons c t ih =>
      obtain ⟨parts, last, hparts⟩ := ih
      rw [List.cons_append, splitAt, hparts]
      split
      next => exact ⟨[] :: parts, last, rfl⟩
      next =>
        cases parts with
        | nil => exact ⟨[], c :: last, rfl⟩
        | cons part parts => exact ⟨(c :: part) :: parts, last, rfl⟩

theorem mem_intercalate
    {c : Char}
    (hc : c ∈ [z].intercalate ws) :
    c = z ∨ ∃ w ∈ ws, c ∈ w := by
  induction ws with
  | nil => cases hc
  | cons w ws ih =>
      cases ws with
      | nil =>
          rw [List.intercalate_singleton] at hc
          exact Or.inr ⟨w, List.mem_cons_self, hc⟩
      | cons v ws =>
          rw [List.intercalate_cons_cons, List.mem_append, List.mem_append,
            List.mem_singleton] at hc
          rcases hc with (hc | hc) | hc
          · exact Or.inr ⟨w, List.mem_cons_self, hc⟩
          · exact Or.inl hc
          · rcases ih hc with hz | ⟨x, hx, hcx⟩
            · exact Or.inl hz
            · exact Or.inr ⟨x, List.mem_cons_of_mem w hx, hcx⟩

theorem intercalate_ne_nil
    (hws : ∀ w ∈ ws, w ≠ [])
    (hne : ws ≠ []) :
    [z].intercalate ws ≠ [] := by
  obtain ⟨w, ws, rfl⟩ := List.exists_cons_of_ne_nil hne
  have hw := hws w List.mem_cons_self
  cases ws with
  | nil => rwa [List.intercalate_singleton]
  | cons v ws =>
      rw [List.intercalate_cons_cons, List.append_assoc]
      exact List.append_ne_nil_of_left_ne_nil hw _

theorem absent_intercalate
    {o : List Char}
    (hsep : ∀ t, Absent o [z] t)
    (hws : ∀ w ∈ ws, Absent o w [] ∧ ∀ t, Absent o w (z :: t)) :
    Absent o ([z].intercalate ws) [] := by
  induction ws with
  | nil =>
      intro x hne hx
      exact absurd (List.suffix_nil.1 hx) hne
  | cons w ws ih =>
      have hw := hws w List.mem_cons_self
      cases ws with
      | nil =>
          rw [List.intercalate_singleton]
          exact hw.1
      | cons v ws =>
          have hrest := ih fun x hx => hws x (List.mem_cons_of_mem w hx)
          rw [List.intercalate_cons_cons]
          exact ((hw.2 _).append (hsep _)).append hrest

theorem takeWhile_append_of_stop
    {f : Char → Bool} {r t : List Char}
    (hr : ∀ c ∈ r, f c = true)
    (ht : ∀ c ∈ t.head?, f c = false) :
    (r ++ t).takeWhile f = r := by
  rw [List.takeWhile_append_of_pos hr]
  cases t with
  | nil => rw [List.takeWhile_nil, List.append_nil]
  | cons c t =>
      have hstop := ht c rfl
      rw [List.takeWhile_cons_of_neg (Bool.eq_false_iff.1 hstop),
        List.append_nil]

namespace Pattern

/-- The text is one match, at the end of a text and before the separator. -/
structure Whole (q : Pattern) (z : Char) (w : List Char) : Prop where
  ne_nil : w ≠ []
  atEnd : q.matchLength w = w.length
  before : ∀ t, q.matchLength (w ++ z :: t) = w.length

variable {q : Pattern}

theorem Whole.of_append
    {w : List Char}
    (hne : w ≠ [])
    (happend : ∀ t, (∀ c ∈ t.head?, c = z) →
      q.matchLength (w ++ t) = w.length) :
    q.Whole z w where
  ne_nil := hne
  atEnd := by
    have hend := happend [] (by simp)
    rwa [List.append_nil] at hend
  before t := happend (z :: t) fun _ hc => (Option.some.inj hc).symm

theorem whole_run
    {f : Char → Bool} {w : List Char}
    (hne : w ≠ [])
    (hw : ∀ c ∈ w, f c = true)
    (hz : f z = false) :
    (run f).Whole z w := by
  apply Whole.of_append hne
  intro t ht
  have hstop : ∀ c ∈ t.head?, f c = false := by
    intro c hc
    rwa [ht c hc]
  exact congrArg List.length (takeWhile_append_of_stop hw hstop)

theorem findAll_intercalate
    (hsep : ∀ t, q.matchLength (z :: t) = 0)
    (hws : ∀ w ∈ ws, q.Whole z w) :
    q.findAll ([z].intercalate ws) = ws := by
  induction ws with
  | nil => rfl
  | cons w ws ih =>
      have hw := hws w List.mem_cons_self
      have hpositive := List.length_pos_iff.2 hw.ne_nil
      cases ws with
      | nil =>
          rw [List.intercalate_singleton,
            findAll_of_matched hw.ne_nil (by rw [hw.atEnd]; omega), hw.atEnd,
            List.take_length, List.drop_length]
          rfl
      | cons v ws =>
          have hrest := ih fun x hx => hws x (List.mem_cons_of_mem w hx)
          have hmatch := hw.before ([z].intercalate (v :: ws))
          rw [List.intercalate_cons_cons, List.append_assoc,
            List.singleton_append,
            findAll_of_matched (by simp) (by rw [hmatch]; omega), hmatch,
            List.take_left, List.drop_left, findAll_cons_of_unmatched (hsep _),
            hrest]

theorem mem_findAll
    {t w : List Char}
    (hw : w ∈ q.findAll t) :
    ∃ u, u ≠ [] ∧ q.matchLength u ≠ 0 ∧ w = u.take (q.matchLength u) := by
  induction t using q.walk_induction with
  | nil => cases hw
  | unmatched c t hmatch ih =>
      rw [findAll_cons_of_unmatched hmatch] at hw
      exact ih hw
  | matched t hne hmatch ih =>
      rw [findAll_of_matched hne hmatch, List.mem_cons] at hw
      rcases hw with rfl | hw
      · exact ⟨t, hne, hmatch, rfl⟩
      · exact ih hw

theorem replace_of_unmatched
    (s : List Char)
    {m : List Char}
    (hmatch : ∀ x, x ≠ [] → x <:+ m → q.matchLength x = 0) :
    q.replace s m = m := by
  have hwhole : q.replace s (m ++ []) = m ++ q.replace s [] := by
    apply replace_append_of_unmatched
    intro x hne hx
    rw [List.append_nil]
    exact hmatch x hne hx
  rwa [List.append_nil, replace_nil, List.append_nil] at hwhole

theorem replace_enclosed_of_absent
    (s : List Char)
    {o k m : List Char}
    (habsent : Absent o m []) :
    (enclosed o k).replace s m = m := by
  apply replace_of_unmatched
  intro x hne hx
  apply matchLength_enclosed_of_no_opener
  simpa using habsent x hne hx

theorem replace_toLineEnd_of_absent
    (s : List Char)
    {marker m : List Char}
    (habsent : Absent marker m []) :
    (toLineEnd marker).replace s m = m := by
  apply replace_of_unmatched
  intro x hne hx
  apply matchLength_toLineEnd_of_no_marker
  simpa using habsent x hne hx

end Pattern

end Resemblance.Text
