import Resemblance.Proofs.Text.Joining
import Resemblance.Text.Words

/-!
# Characters that end every match

A pattern that neither starts a match at some character nor runs a match over it
sees two texts with that character between them one after the other.  Runs end
at every character outside of their class, and line ends are what a marker runs
up to.
-/

namespace Resemblance.Text.Pattern

variable {q : Pattern} {z : Char}

/-- A match in front of `z` is the one that is found without `z` and what is
behind. -/
structure EndsAt (q : Pattern) (z : Char) : Prop where
  start : ∀ t, q.matchLength (z :: t) = 0
  before : ∀ x t, x ≠ [] → q.matchLength (x ++ z :: t) = q.matchLength x

theorem EndsAt.replace_append
    (hq : q.EndsAt z)
    (hbounded : q.Bounded)
    (s p t : List Char) :
    q.replace s (p ++ z :: t) = q.replace s p ++ z :: q.replace s t := by
  rw [Pattern.replace_append s hbounded fun x hne _ => hq.before x t hne,
    replace_cons_of_unmatched s (hq.start t)]

theorem EndsAt.findAll_append
    (hq : q.EndsAt z)
    (hbounded : q.Bounded)
    (p t : List Char) :
    q.findAll (p ++ z :: t) = q.findAll p ++ q.findAll t := by
  induction p using q.walk_induction with
  | nil => exact findAll_cons_of_unmatched (hq.start t)
  | unmatched c p hmatch ih =>
      have hjoined := hq.before (c :: p) t (List.cons_ne_nil c p)
      rw [findAll_cons_of_unmatched hmatch, ← ih]
      exact findAll_cons_of_unmatched (hjoined.trans hmatch)
  | matched p hne hmatch ih =>
      have hjoined := hq.before p t hne
      rw [findAll_of_matched (by simp) (by rwa [hjoined]), hjoined,
        List.take_append_of_le_length (hbounded p),
        List.drop_append_of_le_length (hbounded p), ih,
        findAll_of_matched hne hmatch, List.cons_append]

theorem takeWhile_append_stop
    {f : Char → Bool}
    (hz : f z = false)
    (x t : List Char) :
    (x ++ z :: t).takeWhile f = x.takeWhile f := by
  rw [List.takeWhile_append,
    List.takeWhile_cons_of_neg (Bool.eq_false_iff.1 hz), List.append_nil]
  split
  next hall => exact ((List.takeWhile_prefix f).eq_of_length hall).symm
  next => rfl

theorem bounded_run (f : Char → Bool) : (run f).Bounded :=
  fun _ => (List.takeWhile_prefix f).length_le

theorem endsAt_run
    {f : Char → Bool}
    (hz : f z = false) :
    (run f).EndsAt z where
  start _ :=
    congrArg List.length (List.takeWhile_cons_of_neg (Bool.eq_false_iff.1 hz))
  before x t _ := congrArg List.length (takeWhile_append_stop hz x t)

theorem endsAt_toLineEnd
    {marker : List Char}
    (hne : marker ≠ [])
    (hline : '\n' ∉ marker) :
    (toLineEnd marker).EndsAt '\n' where
  start t := by
    apply matchLength_toLineEnd_of_no_marker
    intro hstart
    obtain ⟨c, marker, rfl⟩ := List.exists_cons_of_ne_nil hne
    obtain ⟨rfl, _⟩ := List.cons_prefix_cons.1 hstart
    exact hline List.mem_cons_self
  before x t hx := by
    by_cases hmarker : marker <+: x
    · rw [matchLength_toLineEnd_of_marker
        (List.prefix_append_of_prefix hmarker),
        matchLength_toLineEnd_of_marker hmarker, takeWhile_append_stop rfl]
    · have hapart : ¬ marker <+: x ++ '\n' :: t :=
        mt (Apart.of_head hline x x hx (List.suffix_refl x)) hmarker
      rw [matchLength_toLineEnd_of_no_marker hapart,
        matchLength_toLineEnd_of_no_marker hmarker]

/-- A pass for blocks leaves a text without openers alone and starts afresh on
the next line. -/
theorem replace_enclosed_append_line
    {o k a : List Char}
    (hone : o ≠ [])
    (hline : '\n' ∉ o)
    (hclosed : ¬ o <:+: a)
    (s b : List Char) :
    (enclosed o k).replace s (a ++ '\n' :: b) =
      a ++ '\n' :: (enclosed o k).replace s b := by
  have habsent : Absent o a ('\n' :: b) :=
    (Apart.of_head hline a).absent hclosed
  have hfeed : ¬ o <+: '\n' :: b := by
    intro hstart
    obtain ⟨c, o, rfl⟩ := List.exists_cons_of_ne_nil hone
    obtain ⟨rfl, _⟩ := List.cons_prefix_cons.1 hstart
    exact hline List.mem_cons_self
  rw [replace_append_of_unmatched s fun x hne hx =>
      matchLength_enclosed_of_no_opener (habsent x hne hx),
    replace_cons_of_unmatched s (matchLength_enclosed_of_no_opener hfeed)]

end Resemblance.Text.Pattern

namespace Resemblance.Text

theorem words_append_of_blank_between
    {z : Char}
    (hz : isBlank z = true)
    (x y : List Char) :
    words (x ++ z :: y) = words x ++ words y := by
  apply Pattern.EndsAt.findAll_append _ (Pattern.bounded_run _)
  apply Pattern.endsAt_run
  rw [hz]
  rfl

theorem intercalate_append
    {z : Char} {vs ws : List (List Char)}
    (hvs : vs ≠ [])
    (hws : ws ≠ []) :
    [z].intercalate (vs ++ ws) =
      [z].intercalate vs ++ z :: [z].intercalate ws := by
  induction vs with
  | nil => exact absurd rfl hvs
  | cons v vs ih =>
      by_cases hlast : vs = []
      · subst hlast
        rw [List.cons_append, List.nil_append,
          List.intercalate_cons_of_ne_nil hws, List.intercalate_singleton,
          List.append_assoc, List.singleton_append]
      · have hrest : vs ++ ws ≠ [] := List.append_ne_nil_of_left_ne_nil hlast ws
        rw [List.cons_append, List.intercalate_cons_of_ne_nil hrest, ih hlast,
          List.intercalate_cons_of_ne_nil hlast, List.append_assoc (v ++ [z])]

end Resemblance.Text
