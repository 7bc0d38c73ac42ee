import Resemblance.Proofs.Text.Boundary
import Resemblance.Proofs.Tokenizer.LiteralContents
import Resemblance.Proofs.Tokenizer.PieceText

/-!
# Texts that are tokenized one after the other

A chunk is complete when it leaves no block and no literal open.  Every pass
then goes over the chunk by itself, keeps the line feed behind it and starts
afresh on what follows, so the tokens of a joined text are those of its two
parts, whatever the second part may hold.
-/

namespace Resemblance

open Text

namespace CommentStyle

variable {style : CommentStyle} {a : List Char}

theorem removeBlocks_append_line
    (hclosed : ∀ block ∈ style.blocks, ¬ block.1 <:+: a)
    (b : List Char) :
    style.removeBlocks (a ++ '\n' :: b) =
      a ++ '\n' :: style.removeBlocks b := by
  apply Pattern.replaceEach_induction (R := fun t u => t = a ++ '\n' :: u) _ rfl
  rintro q hq _ u rfl
  obtain ⟨⟨o, k⟩, hblock, rfl⟩ := List.mem_map.1 hq
  obtain ⟨hone, -, hline⟩ := delimiters_of_mem_blocks hblock
  exact Pattern.replace_enclosed_append_line hone hline
    (hclosed (o, k) hblock) [] u

theorem removeBlocks_of_closed
    (hclosed : ∀ block ∈ style.blocks, ¬ block.1 <:+: a) :
    style.removeBlocks a = a := by
  apply Pattern.replaceEach_induction (R := fun t _ => t = a) _ rfl (u := a)
  rintro q hq _ _ rfl
  obtain ⟨⟨o, k⟩, hblock, rfl⟩ := List.mem_map.1 hq
  apply Pattern.replace_enclosed_of_absent
  exact (absent_iff_nowhere (delimiters_of_mem_blocks hblock).1).2
    (hclosed (o, k) hblock)

theorem removeLines_append_line
    (style : CommentStyle)
    (x y : List Char) :
    style.removeLines (x ++ '\n' :: y) =
      style.removeLines x ++ '\n' :: style.removeLines y := by
  unfold removeLines
  split
  next marker hmarker =>
    obtain ⟨hne, hline⟩ := marker_of_lineMarker? hmarker
    exact (Pattern.endsAt_toLineEnd hne hline).replace_append
      (Pattern.bounded_toLineEnd marker)
      [] x y
  next => rfl

theorem strip_append_line
    (hclosed : ∀ block ∈ style.blocks, ¬ block.1 <:+: a)
    (b : List Char) :
    style.strip (a ++ '\n' :: b) = style.strip a ++ '\n' :: style.strip b := by
  unfold strip
  rw [removeBlocks_append_line hclosed, removeBlocks_of_closed hclosed,
    removeLines_append_line]

end CommentStyle

namespace Literal

theorem maskWith_append_line
    {quote : Char} {x : List Char}
    (hline : '\n' ≠ quote)
    (heven : x.count quote % 2 = 0)
    (y : List Char) :
    maskWith quote (x ++ '\n' :: y) =
      maskWith quote x ++ '\n' :: maskWith quote y := by
  rw [maskWith_append_of_even heven, maskWith_cons hline]

end Literal

namespace Piece

theorem bounded_pattern : pattern.Bounded := by
  intro t
  cases t with
  | nil => exact Nat.zero_le 0
  | cons c rest =>
      have hword := (List.takeWhile_prefix isWordPart (l := rest)).length_le
      have hdigits :=
        (List.takeWhile_prefix isDecimalDigit (l := rest)).length_le
      simp only [pattern, List.length_cons]
      split_ifs <;> omega

/-- A character that belongs to no piece starts none and ends the one before
it. -/
theorem endsAt_of_foreign
    {z : Char}
    (hz : belongs z = false) :
    pattern.EndsAt z := by
  rw [belongs, Bool.or_eq_false_iff, Bool.or_eq_false_iff] at hz
  obtain ⟨⟨hpart, hdigit⟩, hsymbol⟩ := hz
  have hstart : isWordStart z = false :=
    Bool.eq_false_iff.2 fun hstart =>
      Bool.eq_false_iff.1 hpart (isWordPart_of_isWordStart hstart)
  constructor
  · intro t
    simp [pattern, hstart, hdigit, hsymbol]
  · intro x t hne
    obtain ⟨c, rest, rfl⟩ := List.exists_cons_of_ne_nil hne
    simp only [pattern, List.cons_append, Pattern.takeWhile_append_stop hpart,
      Pattern.takeWhile_append_stop hdigit]

theorem lex_append_cons_of_foreign
    {z : Char}
    (hz : belongs z = false)
    (x y : List Char) :
    lex (x ++ z :: y) = lex x ++ lex y := by
  unfold lex
  rw [(endsAt_of_foreign hz).findAll_append bounded_pattern, List.map_append]

theorem lex_intercalate_append (vs ws : List (List Char)) :
    lex ([' '].intercalate (vs ++ ws)) =
      lex ([' '].intercalate vs) ++ lex ([' '].intercalate ws) := by
  by_cases hvs : vs = []
  · subst hvs
    rfl
  by_cases hws : ws = []
  · subst hws
    rw [List.append_nil, List.intercalate_nil]
    exact (List.append_nil _).symm
  · rw [intercalate_append hvs hws,
      lex_append_cons_of_foreign (by decide +kernel)]

end Piece

/-- What ends with no block and no literal open. -/
structure CommentStyle.Complete
    (style : CommentStyle) (a : List Char) : Prop where
  noOpener : ∀ block ∈ style.blocks, ¬ block.1 <:+: a
  evenDouble : (style.strip a).count '"' % 2 = 0
  evenSingle : (Literal.maskWith '"' (style.strip a)).count '\'' % 2 = 0

theorem CommentStyle.Complete.mask_strip_append_line
    {style : CommentStyle} {a : List Char}
    (hcomplete : style.Complete a)
    (b : List Char) :
    Literal.mask (style.strip (a ++ '\n' :: b)) =
      Literal.mask (style.strip a) ++ '\n' :: Literal.mask (style.strip b) := by
  unfold Literal.mask
  rw [strip_append_line hcomplete.noOpener,
    Literal.maskWith_append_line (by decide) hcomplete.evenDouble,
    Literal.maskWith_append_line (by decide) hcomplete.evenSingle]

theorem Profile.tokenize_append_line
    {p : Profile} {a : List Char}
    (hcomplete : p.comments.Complete a)
    (b : List Char) :
    p.tokenize (a ++ '\n' :: b) = p.tokenize a ++ p.tokenize b := by
  rw [tokenize_eq, tokenize_eq, tokenize_eq, canonical,
    hcomplete.mask_strip_append_line, collapse,
    words_append_of_blank_between rfl, Piece.lex_intercalate_append,
    List.map_append]
  rfl

/-- Behind a complete text the tokens of any further lines follow, as if they
were a text by themselves. -/
theorem Tokenizer.tokenize_append_of_complete
    (t : Tokenizer)
    (l : Language)
    {a : String}
    (hcomplete : (t.profile l).comments.Complete a.toList)
    (b : String) :
    t.tokenize (a ++ "\n" ++ b) l = t.tokenize a l ++ t.tokenize b l := by
  have htext : (a ++ "\n" ++ b).toList = a.toList ++ '\n' :: b.toList := by
    simp [String.toList_append]
  unfold tokenize
  rw [htext, Profile.tokenize_append_line hcomplete]

/-- A line with quotes in a literal and in its comment, before lines that close
a docstring and leave another one and a literal open. -/
theorem Tokenizer.tokenize_line_by_line :
    (Tokenizer.default.profile .python).comments.Complete
        "x = f(\"it's\", 'a') # \"so".toList ∧
      Tokenizer.default.tokenize
          ("x = f(\"it's\", 'a') # \"so" ++ "\n" ++
            "y \"\"\" z\n''' w = \"b # c") .python =
        Tokenizer.default.tokenize "x = f(\"it's\", 'a') # \"so" .python ++
          Tokenizer.default.tokenize "y \"\"\" z\n''' w = \"b # c" .python := by
  have hcomplete : (Tokenizer.default.profile .python).comments.Complete
      "x = f(\"it's\", 'a') # \"so".toList :=
    ⟨by decide +kernel, by decide +kernel, by decide +kernel⟩
  exact ⟨hcomplete,
    Tokenizer.tokenize_append_of_complete .default .python hcomplete _⟩

end Resemblance
