import Mathlib.Data.List.Infix
import Resemblance.Comment
import Resemblance.Proofs.Text.Lines

/-!
# Comments to the end of a line

The pass for lines leaves every line of the text without blocks as it is up to
its first marker.  A marker that only came together where a block was removed
counts as one, and a carriage return is no more than a character of its line.
No marker is left, and there are as many lines as before.
-/

namespace Resemblance.CommentStyle

open Text

section Marked

variable {style : CommentStyle} {marker : List Char}

theorem strip_eq_replace
    (hmarker : style.lineMarker? = some marker)
    (t : List Char) :
    style.strip t =
      (Pattern.toLineEnd marker).replace [] (style.removeBlocks t) := by
  simp only [strip, removeLines, hmarker]

theorem forall₂_isCut_strip
    (hmarker : style.lineMarker? = some marker)
    (t : List Char) :
    List.Forall₂ (IsCut marker) (splitAt '\n' (style.removeBlocks t))
      (splitAt '\n' (style.strip t)) := by
  rcases marker_of_lineMarker? hmarker with ⟨hne, hfeed⟩
  rw [strip_eq_replace hmarker]
  exact forall₂_isCut_replace_toLineEnd hne hfeed _

theorem not_infix_strip
    (hmarker : style.lineMarker? = some marker)
    (t : List Char) :
    ¬ marker <:+: style.strip t := by
  rcases marker_of_lineMarker? hmarker with ⟨hne, hfeed⟩
  rw [← intercalate_splitAt '\n' (style.strip t)]
  apply not_infix_intercalate hne hfeed
  intro u hu
  rcases List.mem_iff_get.1 hu with ⟨i, rfl⟩
  have hlines := forall₂_isCut_strip hmarker t
  have hcut := hlines.get (i.isLt.trans_eq hlines.length_eq.symm) i.isLt
  exact hcut.nowhere hne

end Marked

/-- No marker is left, and the lines that are left are the only ones that come
from the lines of the text without blocks by cutting each of them. -/
theorem strip_cuts_lines (t : List Char) :
    '#' ∉ hash.strip t ∧ ¬ ['/', '/'] <:+: cStyle.strip t ∧
    ∀ style marker, lineMarker? style = some marker →
      (∀ lines,
        List.Forall₂ (IsCut marker)
          (splitAt '\n' (style.removeBlocks t)) lines ↔
        lines = splitAt '\n' (style.strip t)) ∧
      (style.strip t).count '\n' = (style.removeBlocks t).count '\n' ∧
      List.Forall₂ (· <+: ·) (splitAt '\n' (style.strip t))
        (splitAt '\n' (style.removeBlocks t)) := by
  refine ⟨?_, not_infix_strip rfl t, ?_⟩
  · intro hhash
    have hmarker : lineMarker? hash = some ['#'] := rfl
    exact not_infix_strip hmarker t ((List.singleton_infix_iff '#' _).2 hhash)
  · intro style marker hmarker
    have hlines := forall₂_isCut_strip hmarker t
    refine ⟨?_, ?_, ?_⟩
    · intro lines
      constructor
      · intro hcut
        exact (isCut_rightUnique marker).forall₂ hcut hlines
      · rintro rfl
        exact hlines
    · have hlength := hlines.length_eq
      rw [length_splitAt, length_splitAt] at hlength
      omega
    · exact (hlines.imp fun _ _ hcut => hcut.isPrefix).flip

/-- The removed block brings two slashes together, and three slashes are cut at
the first. -/
theorem strip_joined_slashes :
    lineMarker? cStyle = some ['/', '/'] ∧
    cStyle.removeBlocks "a //**// b\rc\n///d\n/ e".toList =
      "a // b\rc\n///d\n/ e".toList ∧
    cStyle.strip "a //**// b\rc\n///d\n/ e".toList = "a \n\n/ e".toList := by
  have hmarker : lineMarker? cStyle = some ['/', '/'] := rfl
  have hplain : cStyle.removeBlocks "a //**// b\rc\n///d\n/ e".toList =
      "a // b\rc\n///d\n/ e".toList := by decide
  have hfirst : OnlyAtEnd ['/', '/'] "a ".toList :=
    onlyAtEnd_of_head_not_mem (by decide)
  have hcut : List.Forall₂ (IsCut ['/', '/'])
      (splitAt '\n' (cStyle.removeBlocks "a //**// b\rc\n///d\n/ e".toList))
      ["a ".toList, [], "/ e".toList] := by
    rw [hplain]
    refine .cons (.marked " b\rc".toList hfirst) ?_
    refine .cons (.marked ['/', 'd'] (onlyAtEnd_nil _)) ?_
    exact .cons (.unmarked (by decide)) .nil
  rcases strip_cuts_lines "a //**// b\rc\n///d\n/ e".toList with ⟨-, -, hlines⟩
  refine ⟨hmarker, hplain, ?_⟩
  rw [← intercalate_splitAt '\n' (cStyle.strip _),
    ← ((hlines cStyle _ hmarker).1 _).1 hcut]
  rfl

end Resemblance.CommentStyle
