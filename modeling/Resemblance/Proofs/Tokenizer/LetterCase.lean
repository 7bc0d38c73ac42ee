import Resemblance.Proofs.Text.LetterCase
import Resemblance.Proofs.Tokenizer.Layout

/-!
# Tokens and letter case

No marker of a comment and no quote is a letter, so every pass cuts two texts
with the same letters at the same places.  The pieces have the same letters in
the end, and a piece is looked up, tagged and lowered in one case.
-/

namespace Resemblance

open Text

section Passes

theorem not_alpha_of_all
    {w : List Char}
    (hall : w.all (!·.isAlpha) = true) :
    ∀ z ∈ w, z.isAlpha = false := by
  intro z hz
  have hnot := List.all_eq_true.1 hall z hz
  rwa [Bool.not_eq_true'] at hnot

theorem CommentStyle.caseBlind_block
    {style : CommentStyle} {o k : List Char}
    (hblock : (o, k) ∈ style.blocks) :
    (Pattern.enclosed o k).CaseBlind := by
  have hmarks : o.all (!·.isAlpha) = true ∧ k.all (!·.isAlpha) = true := by
    cases style with
    | hash =>
        simp only [blocks, List.mem_cons, List.not_mem_nil, Prod.mk.injEq,
          or_false] at hblock
        rcases hblock with ⟨rfl, rfl⟩ | ⟨rfl, rfl⟩ <;> decide
    | cStyle =>
        simp only [blocks, List.mem_cons, List.not_mem_nil, Prod.mk.injEq,
          or_false] at hblock
        rcases hblock with ⟨rfl, rfl⟩
        decide
    | none =>
        cases hblock
  exact Pattern.caseBlind_enclosed (not_alpha_of_all hmarks.1)
    (not_alpha_of_all hmarks.2)

theorem CommentStyle.caseBlind_line
    {style : CommentStyle} {marker : List Char}
    (hmarker : style.lineMarker? = some marker) :
    (Pattern.toLineEnd marker).CaseBlind := by
  have hmark : marker.all (!·.isAlpha) = true := by
    cases style <;>
      simp only [lineMarker?, Option.some.injEq, reduceCtorEq] at hmarker <;>
      subst hmarker <;> decide
  exact Pattern.caseBlind_toLineEnd (not_alpha_of_all hmark)

theorem CommentStyle.sameLetters_strip
    (style : CommentStyle)
    {t u : List Char}
    (h : SameLetters t u) :
    SameLetters (style.strip t) (style.strip u) := by
  have hblocks : SameLetters (style.removeBlocks t) (style.removeBlocks u) := by
    apply Pattern.replaceEach_induction _ h
    intro q hq
    obtain ⟨⟨o, k⟩, hblock, rfl⟩ := List.mem_map.1 hq
    intro t u h
    exact (caseBlind_block hblock).replace [] h
  unfold strip removeLines
  split
  next marker hmarker => exact (caseBlind_line hmarker).replace [] hblocks
  next => exact hblocks

theorem Literal.caseBlind_quoted
    {quote : Char}
    (hquote : quote.isAlpha = false) :
    (quoted quote).CaseBlind := by
  have hmark : ∀ z ∈ [quote], z.isAlpha = false := by
    intro z hz
    rwa [List.mem_singleton.1 hz]
  exact Pattern.caseBlind_enclosed hmark hmark

theorem Literal.sameLetters_mask
    {t u : List Char}
    (h : SameLetters t u) :
    SameLetters (mask t) (mask u) :=
  (caseBlind_quoted (by decide)).replace sentinel
    ((caseBlind_quoted (by decide)).replace sentinel h)

end Passes

section Pieces

namespace Piece

theorem isWordStart_toLower (c : Char) :
    isWordStart c.toLower = isWordStart c :=
  apply_toLower (by decide +kernel) c

theorem isWordPart_toLower (c : Char) : isWordPart c.toLower = isWordPart c :=
  apply_toLower (by decide +kernel) c

theorem isDecimalDigit_toLower (c : Char) :
    isDecimalDigit c.toLower = isDecimalDigit c :=
  apply_toLower (by decide +kernel) c

theorem isSymbol_toLower (c : Char) : isSymbol c.toLower = isSymbol c :=
  apply_toLower (by decide +kernel) c

theorem caseBlind_pattern : pattern.CaseBlind := by
  intro t u h
  cases h with
  | nil => rfl
  | @cons c d t u hcd h =>
      have hword := SameLetters.length_takeWhile isWordPart_toLower h
      have hnumber := SameLetters.length_takeWhile isDecimalDigit_toLower h
      simp only [pattern, hword, hnumber,
        apply_eq_of_toLower_eq isWordStart_toLower hcd,
        apply_eq_of_toLower_eq isDecimalDigit_toLower hcd,
        apply_eq_of_toLower_eq isSymbol_toLower hcd]

theorem text_ofText (t : List Char) : (ofText t).text = t := by
  unfold ofText
  split
  · rfl
  · split
    · rfl
    · split <;> rfl

theorem forall₂_lex
    {t u : List Char}
    (h : SameLetters t u) :
    List.Forall₂ (fun a b => SameLetters a.text b.text) (lex t) (lex u) := by
  unfold lex
  rw [List.forall₂_map_left_iff, List.forall₂_map_right_iff]
  apply (caseBlind_pattern.findAll h).imp
  intro v w hvw
  rwa [text_ofText, text_ofText]

end Piece

theorem Profile.classify_eq_of_sameLetters
    (p : Profile)
    {a b : Piece}
    (h : SameLetters a.text b.text) :
    p.classify a = p.classify b := by
  have hlower : Text.lowercased (String.ofList a.text) =
      Text.lowercased (String.ofList b.text) := by
    simp only [Text.lowercased, String.toList_ofList, h.lowercase_eq]
  have hupper : Text.uppercase a.text = Text.uppercase b.text := h.uppercase_eq
  simp only [classify, KeywordSet.contains, Token.keyword, Token.ordinary,
    String.toList_ofList, hlower, hupper]

end Pieces

theorem Profile.tokenize_eq_of_sameLetters
    (p : Profile)
    {t u : List Char}
    (h : SameLetters t u) :
    p.tokenize t = p.tokenize u := by
  have hcanonical : SameLetters (p.canonical t) (p.canonical u) :=
    sameLetters_collapse
      (Literal.sameLetters_mask (p.comments.sameLetters_strip h))
  have hpieces := Piece.forall₂_lex hcanonical
  rw [tokenize_eq, tokenize_eq]
  generalize Piece.lex (p.canonical t) = as,
    Piece.lex (p.canonical u) = bs at hpieces
  induction hpieces with
  | nil => rfl
  | cons hab _ ih =>
      rw [List.map_cons, List.map_cons, p.classify_eq_of_sameLetters hab, ih]

/-- Neither the tokens of a text nor their tags depend on the case of ASCII
letters. -/
theorem Tokenizer.tokenize_eq_of_asciiLowered_eq
    (t : Tokenizer)
    (l : Language)
    {x y : String}
    (hletters : Text.asciiLowered x = Text.asciiLowered y) :
    t.tokenize x l = t.tokenize y l := by
  apply Profile.tokenize_eq_of_sameLetters
  apply sameLetters_of_map_eq
  rw [← String.toList_ofList (l := x.toList.map _),
    ← String.toList_ofList (l := y.toList.map _)]
  exact congrArg String.toList hletters

/-- Two spellings of a line with reserved words, a literal that a letter touches
and a comment. -/
theorem Tokenizer.tokenize_shouted :
    Text.asciiLowered "IF Foo_1 NOT IN f\"aBc\": # No\nreturn Éx" =
        Text.asciiLowered "if fOO_1 not in F\"AbC\": # nO\nReTurn ÉX" ∧
      Tokenizer.default.tokenize
        "IF Foo_1 NOT IN f\"aBc\": # No\nreturn Éx" .python =
        Tokenizer.default.tokenize
          "if fOO_1 not in F\"AbC\": # nO\nReTurn ÉX" .python := by
  have hletters :
      Text.asciiLowered "IF Foo_1 NOT IN f\"aBc\": # No\nreturn Éx" =
      Text.asciiLowered "if fOO_1 not in F\"AbC\": # nO\nReTurn ÉX" := by
    decide +kernel
  exact ⟨hletters,
    Tokenizer.tokenize_eq_of_asciiLowered_eq .default .python hletters⟩

end Resemblance
