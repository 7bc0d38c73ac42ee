import Resemblance.Proofs.Text.Layout
import Resemblance.Tokenizer

/-!
# Tokens and layout

Every pass of a tokenizer takes texts of the same layout to texts of the same
layout, so the words that are left in the end are the same.  Blanks are no
matter to any pass: a blank text keeps its blanks and has no words, which makes
the early return for blank texts one with the passes.
-/

namespace Resemblance

open Text

theorem not_blank_of_all
    {t : List Char}
    (hall : t.all (!isBlank ·) = true) :
    ∀ c ∈ t, isBlank c = false := by
  intro c hc
  have hnot := List.all_eq_true.1 hall c hc
  rwa [Bool.not_eq_true'] at hnot

theorem CommentStyle.layoutBlind_block
    {style : CommentStyle} {o k : List Char}
    (hblock : (o, k) ∈ style.blocks) :
    (Pattern.enclosed o k).LayoutBlind := by
  have hplain : o ≠ [] ∧ k ≠ [] ∧ (o ++ k).all (!isBlank ·) = true := by
    cases style <;>
      simp only [blocks, List.mem_cons, List.not_mem_nil, Prod.mk.injEq,
      or_false] at hblock
    · rcases hblock with ⟨rfl, rfl⟩ | ⟨rfl, rfl⟩ <;> decide
    · rcases hblock with ⟨rfl, rfl⟩
      decide
  have hsolid : ∀ c ∈ o ++ k, isBlank c = false := not_blank_of_all hplain.2.2
  exact Pattern.layoutBlind_enclosed hplain.1 hplain.2.1
    (fun c hc => hsolid c (List.mem_append_left k hc))
    (fun c hc => hsolid c (List.mem_append_right o hc))

theorem CommentStyle.layoutBlind_line
    {style : CommentStyle} {marker : List Char}
    (hmarker : style.lineMarker? = some marker) :
    (Pattern.toLineEnd marker).LayoutBlind := by
  have hplain : marker ≠ [] ∧ marker.all (!isBlank ·) = true := by
    cases style <;>
      simp only [lineMarker?, Option.some.injEq, reduceCtorEq] at hmarker
    · subst hmarker
      decide
    · subst hmarker
      decide
  exact Pattern.layoutBlind_toLineEnd hplain.1 (not_blank_of_all hplain.2)

theorem Literal.layoutBlind_quoted
    {quote : Char}
    (hquote : isBlank quote = false) :
    (quoted quote).LayoutBlind := by
  have hword : ∀ c ∈ [quote], isBlank c = false := by
    intro c hc
    rwa [List.mem_singleton.1 hc]
  exact Pattern.layoutBlind_enclosed (List.cons_ne_nil quote [])
    (List.cons_ne_nil quote [])
    hword hword

/-- One pass after the other: what each pattern preserves is preserved by
all. -/
theorem Pattern.replaceEach_induction
    {ps : List Pattern} {s : List Char} {R : List Char → List Char → Prop}
    (hstep : ∀ q ∈ ps, ∀ t u, R t u → R (q.replace s t) (q.replace s u))
    {t u : List Char}
    (h : R t u) :
    R (Pattern.replaceEach ps s t) (Pattern.replaceEach ps s u) := by
  unfold Pattern.replaceEach
  induction ps generalizing t u with
  | nil => exact h
  | cons q ps ih =>
      exact ih (fun p hp => hstep p (List.mem_cons_of_mem q hp))
        (hstep q List.mem_cons_self t u h)

theorem CommentStyle.sameLayout_strip
    (style : CommentStyle)
    {t u : List Char}
    (h : SameLayout t u) :
    SameLayout (style.strip t) (style.strip u) := by
  have hblocks : SameLayout (style.removeBlocks t) (style.removeBlocks u) := by
    apply Pattern.replaceEach_induction _ h
    intro q hq
    obtain ⟨⟨o, k⟩, hblock, rfl⟩ := List.mem_map.1 hq
    intro t u h
    exact (layoutBlind_block hblock).replace [] h
  unfold strip removeLines
  split
  next marker hmarker => exact (layoutBlind_line hmarker).replace [] hblocks
  next => exact hblocks

theorem Literal.sameLayout_mask
    {t u : List Char}
    (h : SameLayout t u) :
    SameLayout (mask t) (mask u) :=
  (layoutBlind_quoted (by decide)).replace sentinel
    ((layoutBlind_quoted (by decide)).replace sentinel h)

theorem Profile.canonical_eq_of_sameLayout
    (p : Profile)
    {t u : List Char}
    (h : SameLayout t u) :
    p.canonical t = p.canonical u := by
  unfold canonical collapse
  rw [(Literal.sameLayout_mask (p.comments.sameLayout_strip h)).words_eq]

theorem Text.mem_blank_of_dropWhile
    {t : List Char}
    (hblank : ∀ c ∈ t.dropWhile isBlank, isBlank c = true) :
    ∀ c ∈ t, isBlank c = true := by
  intro c hc
  rw [← List.takeWhile_append_dropWhile (p := isBlank) (l := t),
    List.mem_append] at hc
  exact hc.elim (all_blank_takeWhile t c) (hblank c)

theorem Text.blank_of_trim_eq_nil
    {t : List Char}
    (htrim : trim t = []) :
    ∀ c ∈ t, isBlank c = true := by
  have hdrop : (t.dropWhile isBlank).reverse.dropWhile isBlank = [] := by
    simpa [trim, dropBlankEnd] using htrim
  apply mem_blank_of_dropWhile
  intro c hc
  refine mem_blank_of_dropWhile ?_ c (List.mem_reverse.2 hc)
  simp [hdrop]

theorem Profile.canonical_of_blank
    (p : Profile)
    {t : List Char}
    (hblank : ∀ c ∈ t, isBlank c = true) :
    p.canonical t = [] := by
  obtain ⟨style, keywords⟩ := p
  by_cases hne : t = []
  · subst hne
    cases style <;> rfl
  · have hmark : ∀ c ∈ [blankMark t], isBlank c = true := by
      intro c hc
      rw [List.mem_singleton.1 hc]
      exact isBlank_blankMark t
    have hlayout : SameLayout (t ++ []) ([blankMark t] ++ []) :=
      SameLayout.blanks hblank hmark hne (List.cons_ne_nil _ [])
        (line_mem_blankMark_iff t) SameLayout.nil
    rw [List.append_nil, List.append_nil] at hlayout
    rw [canonical_eq_of_sameLayout _ hlayout]
    unfold blankMark
    split <;> cases style <;> rfl

/-- The early return for blank texts changes nothing. -/
theorem Profile.tokenize_eq
    (p : Profile)
    (t : List Char) :
    p.tokenize t = (Piece.lex (p.canonical t)).map p.classify := by
  unfold tokenize
  split
  next hblank =>
    rw [p.canonical_of_blank (blank_of_trim_eq_nil (List.isEmpty_iff.1 hblank))]
    rfl
  next => rfl

theorem Profile.tokenize_eq_of_strip_eq
    (p : Profile)
    {t u : List Char}
    (hstrip : p.comments.strip t = p.comments.strip u) :
    p.tokenize t = p.tokenize u := by
  rw [tokenize_eq, tokenize_eq, canonical, canonical, hstrip]

/-- How a text is indented and broken into blanks changes none of its tokens, as
long as each run of blanks keeps a line feed or keeps none. -/
theorem Tokenizer.tokenize_eq_of_squeeze_eq
    (t : Tokenizer)
    (l : Language)
    {x y : String}
    (hlayout : squeeze x.toList = squeeze y.toList) :
    t.tokenize x l = t.tokenize y l := by
  have hsqueeze : ∀ z : String,
      (t.profile l).canonical z.toList =
        (t.profile l).canonical (squeeze z.toList) :=
    fun z => (t.profile l).canonical_eq_of_sameLayout
      (sameLayout_squeeze z.toList)
  unfold tokenize
  rw [Profile.tokenize_eq, Profile.tokenize_eq, hsqueeze x, hsqueeze y, hlayout]

/-- A copy with other indentation, line ends and no-break spaces, with comments
and literals. -/
theorem Tokenizer.tokenize_reindented :
    squeeze "if x:\n\treturn 'a\t b'  # c\u00a0d\n".toList =
        squeeze "if  x:\r\n    return\u2003'a b' # c d \n\n".toList ∧
      Tokenizer.default.tokenize
        "if x:\n\treturn 'a\t b'  # c\u00a0d\n" .python =
        Tokenizer.default.tokenize
          "if  x:\r\n    return\u2003'a b' # c d \n\n" .python := by
  have hlayout : squeeze "if x:\n\treturn 'a\t b'  # c\u00a0d\n".toList =
      squeeze "if  x:\r\n    return\u2003'a b' # c d \n\n".toList := by
    decide +kernel
  exact ⟨hlayout, Tokenizer.tokenize_eq_of_squeeze_eq .default .python hlayout⟩

end Resemblance
