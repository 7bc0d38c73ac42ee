import Mathlib.Data.List.Forall2
import Mathlib.Data.List.TakeWhile
import Resemblance.Proofs.Text.Boundary
import Resemblance.Proofs.Text.Enclosed

/-!
# Lines cut at a marker

Only a line feed ends a line.  A pass up to the line ends cuts every line before
its first marker and keeps the line feeds.  The marker holds no line feed, so
what is left of two neighbouring lines never makes a marker together.
-/

namespace Resemblance.Text

/-- What is left of a line that is cut before its first marker. -/
inductive IsCut (marker : List Char) : List Char → List Char → Prop
  | unmarked {line : List Char} : ¬ marker <:+: line → IsCut marker line line
  | marked {u : List Char} (r : List Char) :
      OnlyAtEnd marker u → IsCut marker (u ++ marker ++ r) u

section Cut

variable {marker line u : List Char}

theorem IsCut.isPrefix (hu : IsCut marker line u) : u <+: line := by
  cases hu with
  | unmarked hnone => exact List.prefix_refl _
  | marked r hu => exact ⟨marker ++ r, by simp⟩

theorem IsCut.nowhere
    (hmarker : marker ≠ [])
    (hu : IsCut marker line u) :
    ¬ marker <:+: u := by
  cases hu with
  | unmarked hnone => exact hnone
  | marked r hu =>
      rintro ⟨p, s, rfl⟩
      have hend := hu p (s ++ marker) (by simp)
      simp [hmarker] at hend

theorem isCut_rightUnique (marker : List Char) :
    Relator.RightUnique (IsCut marker) := by
  intro line u v hu hv
  cases hu with
  | unmarked hnone =>
      cases hv with
      | unmarked _ => rfl
      | marked r hv => exact absurd ⟨v, r, rfl⟩ hnone
  | marked r hu =>
      generalize hline : u ++ marker ++ r = line at hv
      cases hv with
      | unmarked hnone => exact absurd ⟨u, r, hline⟩ hnone
      | marked r' hv => exact (hu.unique hv hline).1

end Cut

section Separators

variable {z : Char}

theorem length_splitAt
    (z : Char)
    (t : List Char) :
    (splitAt z t).length = t.count z + 1 := by
  induction t with
  | nil => rfl
  | cons c t ih =>
      unfold splitAt
      split
      next hc => simp [ih, beq_iff_eq.1 hc]
      next hc =>
        have hne : c ≠ z := by simpa using hc
        rw [List.count_cons_of_ne hne, ← ih]
        cases hparts : splitAt z t with
        | nil => exact absurd hparts (splitAt_ne_nil z t)
        | cons part parts => rfl

theorem splitAt_append_cons
    (z : Char)
    (u t : List Char) :
    splitAt z (u ++ z :: t) = splitAt z u ++ splitAt z t := by
  simp only [splitAt_eq_splitOn]
  exact List.splitOnP_append_cons u t (beq_self_eq_true z)

theorem not_infix_intercalate
    {w : List Char} {ws : List (List Char)}
    (hne : w ≠ [])
    (hz : z ∉ w)
    (hws : ∀ x ∈ ws, ¬ w <:+: x) :
    ¬ w <:+: [z].intercalate ws := by
  rw [← absent_iff_nowhere hne]
  apply absent_intercalate
  · intro t
    rcases List.exists_cons_of_ne_nil hne with ⟨c, w, rfl⟩
    exact Absent.of_not_mem hz t
  · intro x hx
    exact ⟨(absent_iff_nowhere hne).2 (hws x hx),
      fun t => (Apart.of_head hz x).absent (hws x hx)⟩

theorem Pattern.EndsAt.replace_intercalate
    {q : Pattern}
    (hq : q.EndsAt z)
    (hbounded : q.Bounded)
    (s : List Char)
    (ws : List (List Char)) :
    q.replace s ([z].intercalate ws) =
      [z].intercalate (ws.map (q.replace s)) := by
  induction ws with
  | nil => rfl
  | cons w ws ih =>
      cases ws with
      | nil => simp
      | cons v ws =>
          rw [List.intercalate_cons_cons, List.append_assoc,
            List.singleton_append, hq.replace_append hbounded, ih]
          simp

end Separators

section LineEnds

variable {marker line : List Char}

theorem isCut_replace_toLineEnd
    (hmarker : marker ≠ [])
    (hline : '\n' ∉ line) :
    IsCut marker line ((Pattern.toLineEnd marker).replace [] line) := by
  by_cases hmarked : marker <:+: line
  · rcases exists_onlyAtEnd hmarked with ⟨u, r, rfl, hu⟩
    have hbefore : ∀ x, x ≠ [] → x <:+ u →
        (Pattern.toLineEnd marker).matchLength (x ++ (marker ++ r)) = 0 :=
      fun x hne hx =>
        Pattern.matchLength_toLineEnd_of_no_marker (hu.absent r x hne hx)
    have hrest : ∀ c ∈ marker ++ r, (c != '\n') = true := by
      apply ne_line_of_not_mem
      intro hfeed
      exact hline (by simp_all)
    have hmatch : (Pattern.toLineEnd marker).matchLength (marker ++ r) =
        (marker ++ r).length := by
      rw [Pattern.matchLength_toLineEnd_of_marker (List.prefix_append marker r),
        List.takeWhile_eq_self_iff.2 hrest]
    have hcut : (Pattern.toLineEnd marker).replace [] (u ++ marker ++ r) =
        u := by
      rw [List.append_assoc, Pattern.replace_append_of_unmatched [] hbefore,
        Pattern.replace_of_matched [] (by simp [hmarker])
          (by simp [hmatch, hmarker]), hmatch]
      simp
    rw [hcut]
    exact .marked r hu
  · rw [Pattern.replace_toLineEnd_of_absent []
      ((absent_iff_nowhere hmarker).2 hmarked)]
    exact .unmarked hmarked

/-- The lines of a text without its marked line ends are its lines, each of them
cut. -/
theorem splitAt_replace_toLineEnd
    (hmarker : marker ≠ [])
    (hfeed : '\n' ∉ marker)
    (t : List Char) :
    splitAt '\n' ((Pattern.toLineEnd marker).replace [] t) =
      (splitAt '\n' t).map ((Pattern.toLineEnd marker).replace []) := by
  have hlines := (Pattern.endsAt_toLineEnd hmarker hfeed).replace_intercalate
    (Pattern.bounded_toLineEnd marker) [] (splitAt '\n' t)
  rw [intercalate_splitAt] at hlines
  rw [hlines]
  apply splitAt_intercalate
  · intro u hu
    rcases List.mem_map.1 hu with ⟨line, hline, rfl⟩
    have hcut := isCut_replace_toLineEnd hmarker (not_mem_of_mem_splitAt hline)
    exact fun hmem => not_mem_of_mem_splitAt hline (hcut.isPrefix.subset hmem)
  · simp [splitAt_ne_nil]

theorem forall₂_isCut_replace_toLineEnd
    (hmarker : marker ≠ [])
    (hfeed : '\n' ∉ marker)
    (t : List Char) :
    List.Forall₂ (IsCut marker) (splitAt '\n' t)
      (splitAt '\n' ((Pattern.toLineEnd marker).replace [] t)) := by
  rw [splitAt_replace_toLineEnd hmarker hfeed, List.forall₂_map_right_iff,
    List.forall₂_same]
  intro line hline
  exact isCut_replace_toLineEnd hmarker (not_mem_of_mem_splitAt hline)

end LineEnds

end Resemblance.Text
