import Resemblance.Proofs.Text.Insertion
import Resemblance.Proofs.Tokenizer.Layout

/-!
# Comments at the end of a line

A comment that runs to the end of its line can be added or dropped anywhere,
also inside a block that is still open, behind another comment, or in what will
be a literal.  The passes for blocks treat the comment with its line feed and
the bare line feed alike, and the pass for lines then removes the comment.
-/

namespace Resemblance

open Text

namespace CommentStyle

theorem cStyle_removeBlocks (t : List Char) :
    cStyle.removeBlocks t =
      (Pattern.enclosed ['/', '*'] ['*', '/']).replace [] t := rfl

theorem hash_removeBlocks_treatsAlike
    {p t m n : List Char}
    (hdm : Insulated ['"', '"', '"'] p m t)
    (hdn : Insulated ['"', '"', '"'] p n t)
    (hsm : ∀ p' t', Insulated ['\'', '\'', '\''] p' m t')
    (hsn : ∀ p' t', Insulated ['\'', '\'', '\''] p' n t') :
    TreatsAlike hash.removeBlocks p t m n :=
  (Pattern.enclosed_treatsAlike [] hdm hdn hdm hdn).comp fun t' =>
    Pattern.enclosed_treatsAlike [] (hsm _ t') (hsn _ t') (hsm _ t') (hsn _ t')

theorem cStyle_removeBlocks_treatsAlike
    {p t m n : List Char}
    (hom : Insulated ['/', '*'] p m t)
    (hon : Insulated ['/', '*'] p n t)
    (hkm : Insulated ['*', '/'] p m t)
    (hkn : Insulated ['*', '/'] p n t) :
    TreatsAlike cStyle.removeBlocks p t m n :=
  Pattern.enclosed_treatsAlike [] hom hon hkm hkn

/-- A word without a line feed that is neither in the text of a comment nor
starts in its marker is not in the comment, and does not run on behind it. -/
theorem absent_comment
    {z : Char} {w marker c t : List Char}
    (hmarker : Absent (z :: w) marker (c ++ '\n' :: t))
    (hline : '\n' ∉ z :: w)
    (hnowhere : ¬ z :: w <:+: c) :
    Absent (z :: w) (marker ++ c ++ ['\n']) t := by
  have htext : Absent (z :: w) c ('\n' :: t) :=
    (Apart.of_head hline c).absent hnowhere
  exact (hmarker.append htext).append (Absent.of_not_mem hline t)

theorem insulated_line
    {z : Char} {w : List Char}
    (hline : '\n' ∉ z :: w)
    (p t : List Char) :
    Insulated (z :: w) p ['\n'] t :=
  Insulated.of_head hline (Absent.of_not_mem hline t) p

theorem strip_comment
    {style : CommentStyle} {marker c p t : List Char}
    (hmarker : style.lineMarker? = some marker)
    (hne : marker ≠ [])
    (hline : '\n' ∉ marker ++ c)
    (hblocks : TreatsAlike style.removeBlocks p t
      (marker ++ c ++ ['\n']) ['\n'])
    (hapart : ∀ y, Apart marker (style.removeBlocks p) y) :
    style.strip (p ++ (marker ++ c ++ '\n' :: t)) =
      style.strip (p ++ '\n' :: t) := by
  have hcomment : marker ++ c ++ '\n' :: t = marker ++ c ++ ['\n'] ++ t := by
    simp
  have hlines : style.removeLines = (Pattern.toLineEnd marker).replace [] := by
    funext u
    simp only [removeLines, hmarker]
  unfold strip
  rw [hcomment, hlines]
  rcases hblocks with ⟨t', hm, hn⟩ | heq
  · have hinsert := Pattern.toLineEnd_replace_insert hne hline hapart t'
    rw [hm, List.append_assoc _ ['\n'] t']
    exact hinsert.trans (congrArg _ hn.symm)
  · rw [heq]
    rfl

theorem hash_strip_comment
    {c : List Char}
    (hline : '\n' ∉ c)
    (hdouble : ¬ ['"', '"', '"'] <:+: c)
    (hsingle : ¬ ['\'', '\'', '\''] <:+: c)
    (p t : List Char) :
    hash.strip (p ++ '#' :: c ++ '\n' :: t) = hash.strip (p ++ '\n' :: t) := by
  have hinsulated : ∀ {z : Char}, '#' ≠ z → '\n' ≠ z → ¬ [z, z, z] <:+: c →
      ∀ p t, Insulated [z, z, z] p (['#'] ++ c ++ ['\n']) t := by
    intro z hhash hfeed hnowhere p t
    have hmarker : Absent [z, z, z] ['#'] (c ++ '\n' :: t) := by
      apply Absent.of_head_not_mem
      simpa using hhash.symm
    exact Insulated.of_head (by simp [hhash])
      (absent_comment hmarker (by simp [hfeed]) hnowhere) p
  have hblocks :
      TreatsAlike hash.removeBlocks p t (['#'] ++ c ++ ['\n']) ['\n'] :=
    hash_removeBlocks_treatsAlike
      (hinsulated (by decide) (by decide) hdouble p t)
      (insulated_line (by decide) p t)
      (hinsulated (by decide) (by decide) hsingle)
      (insulated_line (by decide))
  have hmarked : '\n' ∉ ['#'] ++ c := by simpa using hline
  have hstrip := strip_comment rfl (List.cons_ne_nil '#' []) hmarked hblocks
    (Apart.singleton '#' _)
  simpa using hstrip

theorem cStyle_strip_comment
    {p c : List Char}
    (hline : '\n' ∉ c)
    (hopen : ¬ ['/', '*'] <:+: c)
    (hclose : ¬ ['*', '/'] <:+: c)
    (hstar : c.head? ≠ some '*')
    (hslash : p.getLast? ≠ some '/')
    (hlast : p.getLast? ≠ some '*')
    (t : List Char) :
    cStyle.strip (p ++ '/' :: '/' :: c ++ '\n' :: t) =
      cStyle.strip (p ++ '\n' :: t) := by
  have hend : ∀ z ∈ p.getLast?, z ≠ '/' ∧ z ≠ '*' := by
    intro z hz
    exact ⟨fun heq => hslash (heq ▸ hz), fun heq => hlast (heq ▸ hz)⟩
  have hopener : Insulated ['/', '*'] p (['/', '/'] ++ c ++ ['\n']) t := by
    refine ⟨Apart.of_getLast? fun z hz => by simp [hend z hz], absent_comment ?_
      (by decide) hopen⟩
    have hfirst : Absent ['/', '*'] ['/'] (['/'] ++ (c ++ '\n' :: t)) :=
      Absent.singleton (by simp)
    have hsecond : Absent ['/', '*'] ['/'] (c ++ '\n' :: t) := by
      apply Absent.singleton
      cases c with
      | nil => simp
      | cons z c =>
          have hz : z ≠ '*' := fun heq => hstar (heq ▸ rfl)
          simp [hz.symm]
    exact hfirst.append hsecond
  have hcloser : Insulated ['*', '/'] p (['/', '/'] ++ c ++ ['\n']) t :=
    ⟨Apart.of_getLast? fun z hz => by simp [hend z hz],
      absent_comment (Absent.of_head_not_mem (by decide)) (by decide) hclose⟩
  have hblocks :
      TreatsAlike cStyle.removeBlocks p t (['/', '/'] ++ c ++ ['\n']) ['\n'] :=
    cStyle_removeBlocks_treatsAlike hopener
      (insulated_line (by decide) p t) hcloser
      (insulated_line (by decide) p t)
  -- The last character of `p` survives the blocks, so no marker forms across
  -- the boundary.
  have hapart : ∀ y, Apart ['/', '/'] (cStyle.removeBlocks p) y := by
    intro y
    apply Apart.of_getLast?
    intro z hz
    rcases List.eq_nil_or_concat p with rfl | ⟨before, d, rfl⟩
    · rw [cStyle_removeBlocks, Pattern.replace_nil] at hz
      cases hz
    · have hd := hend d (by simp)
      rw [cStyle_removeBlocks, List.concat_eq_append,
        Pattern.enclosed_replace_concat [] (by simp) (by simp)
          (by simp [hd]) (by simp [hd]),
        List.getLast?_concat] at hz
      obtain rfl := Option.some.inj hz
      simp [hd]
  have hmarked : '\n' ∉ ['/', '/'] ++ c := by simpa using hline
  have hstrip :=
    strip_comment rfl (List.cons_ne_nil '/' ['/']) hmarked hblocks hapart
  simpa using hstrip

end CommentStyle

/-- Two texts that differ in a comment at the end of a line are the same to
every profile. -/
theorem comment_leaves_no_trace (p t : List Char) :
    (∀ c, '\n' ∉ c → ¬ ['"', '"', '"'] <:+: c → ¬ ['\'', '\'', '\''] <:+: c →
      CommentStyle.hash.strip (p ++ '#' :: c ++ '\n' :: t) =
          CommentStyle.hash.strip (p ++ '\n' :: t) ∧
        ∀ keywords : KeywordSet,
          (Profile.mk .hash keywords).tokenize (p ++ '#' :: c ++ '\n' :: t) =
            (Profile.mk .hash keywords).tokenize (p ++ '\n' :: t)) ∧
    ∀ c, '\n' ∉ c → ¬ ['/', '*'] <:+: c → ¬ ['*', '/'] <:+: c →
      c.head? ≠ some '*' →
      p.getLast? ≠ some '/' → p.getLast? ≠ some '*' →
      CommentStyle.cStyle.strip (p ++ '/' :: '/' :: c ++ '\n' :: t) =
          CommentStyle.cStyle.strip (p ++ '\n' :: t) ∧
        ∀ keywords : KeywordSet,
          (Profile.mk .cStyle keywords).tokenize
            (p ++ '/' :: '/' :: c ++ '\n' :: t) =
            (Profile.mk .cStyle keywords).tokenize (p ++ '\n' :: t) := by
  constructor
  · intro c hline hdouble hsingle
    have hstrip := CommentStyle.hash_strip_comment hline hdouble hsingle p t
    exact ⟨hstrip, fun keywords => Profile.tokenize_eq_of_strip_eq _ hstrip⟩
  · intro c hline hopen hclose hstar hslash hlast
    have hstrip :=
      CommentStyle.cStyle_strip_comment hline hopen hclose hstar hslash hlast t
    exact ⟨hstrip, fun keywords => Profile.tokenize_eq_of_strip_eq _ hstrip⟩

/-- Comments in an open docstring and in an open block, with quotes and markers
inside. -/
theorem comment_in_open_block :
    CommentStyle.hash.strip
        ("x = \"\"\"a".toList ++ '#' :: "it''s # \"so\"".toList ++ '\n' ::
          "b\"\"\"y".toList) =
      CommentStyle.hash.strip
        ("x = \"\"\"a".toList ++ '\n' :: "b\"\"\"y".toList) ∧
    CommentStyle.cStyle.strip
        ("f(); /* a".toList ++ '/' :: '/' :: "b * / c".toList ++ '\n' ::
          "*/ g();".toList) =
      CommentStyle.cStyle.strip
        ("f(); /* a".toList ++ '\n' :: "*/ g();".toList) := by
  constructor
  · exact ((comment_leaves_no_trace "x = \"\"\"a".toList "b\"\"\"y".toList).1
      "it''s # \"so\"".toList (by decide +kernel) (by decide +kernel)
      (by decide +kernel)).1
  · exact ((comment_leaves_no_trace "f(); /* a".toList "*/ g();".toList).2
      "b * / c".toList (by decide +kernel) (by decide +kernel)
        (by decide +kernel)
      (by decide +kernel) (by decide +kernel) (by decide +kernel)).1

end Resemblance
