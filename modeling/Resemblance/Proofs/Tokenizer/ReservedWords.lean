import Resemblance.Proofs.Settings.Overrides
import Resemblance.Proofs.Tokenizer.Flattening
import Resemblance.Proofs.Tokenizer.PieceGrammar
import Resemblance.Proofs.Tokenizer.Tags

/-!
# Words that settings may reserve

The check of settings lets identifiers pass, and these are the texts that are
cut into one word.  No pass before the cut changes a text that is a single
piece, so every word that settings reserve is found and tagged.
-/

namespace Resemblance

open Text

section Identifiers

variable {w : String}

theorem Settings.isIdentifier_iff :
    isIdentifier w = true ↔
      ∃ c rest, w.toList = c :: rest ∧ Piece.isWordStart c = true ∧
      ∀ d ∈ rest, Piece.isWordPart d = true := by
  unfold isIdentifier
  cases w.toList with
  | nil => simp
  | cons c rest => simp

theorem Piece.Cut.wellFormed
    {t : List Char} {ps : List Piece}
    (h : Cut t ps) :
    ∀ p ∈ ps, p.WellFormed := by
  induction h with
  | nil => simp
  | foreign _ _ ih => exact ih
  | piece hp _ _ ih => simpa [hp] using ih

theorem Piece.lex_nil : lex [] = [] := by
  rw [lex, Pattern.findAll, Pattern.findAllFrom_nil, List.map_nil]

theorem Settings.isIdentifier_iff_lex :
    isIdentifier w = true ↔ Piece.lex w.toList = [.word w.toList] := by
  rw [isIdentifier_iff]
  constructor
  · rintro ⟨c, rest, hchars, hc, hrest⟩
    have hword := Piece.lex_append_of_stop (t := []) (.word hc hrest) (by simp)
    rw [Piece.text, List.append_nil, Piece.lex_nil] at hword
    rw [hchars, hword]
  · intro hlex
    have hcut := Piece.cut_lex w.toList
    rw [hlex] at hcut
    have hword := hcut.wellFormed _ List.mem_cons_self
    generalize w.toList = t at hword
    cases hword with
    | word hc hrest => exact ⟨_, _, rfl, hc, hrest⟩

theorem Piece.isPiece_of_isIdentifier (hw : Settings.isIdentifier w = true) :
    IsPiece w.toList := by
  obtain ⟨c, rest, hchars, hc, hrest⟩ := Settings.isIdentifier_iff.1 hw
  rw [hchars]
  exact .word hc hrest

end Identifiers

section OnePiece

variable {p : Profile} {t : List Char}

theorem Profile.tokenize_piece
    (p : Profile)
    (ht : Piece.IsPiece t) :
    p.tokenize t = [p.classify (.ofText t)] := by
  have hone : ∀ w ∈ [t], Piece.IsPiece w := by
    intro w hw
    rwa [List.mem_singleton.1 hw]
  have hcanonical := p.canonical_pieces hone
  have hlex := Piece.lex_pieces hone
  rw [List.intercalate_singleton] at hcanonical hlex
  rw [tokenize_eq, hcanonical, hlex]
  rfl

end OnePiece

section Listed

variable {p : Profile} {ws : List String} {w : String}

theorem KeywordSet.contains_ofList_of_mem
    (hw : Settings.isIdentifier w = true)
    (hmem : w ∈ ws) :
    (ofList ws).contains w = true := by
  have hpiece := Piece.isPiece_of_isIdentifier hw
  have hsolid : ∀ c ∈ w.toList, isBlank c = false :=
    fun c hc => Piece.not_blank_of_belongs (hpiece.belongs c hc)
  refine (contains_ofList_iff hpiece.lowercased_ne_empty).2 ⟨w, hmem, ?_⟩
  rw [Text.trimmed, Text.trim_of_no_blank hsolid, String.ofList_toList]

theorem Profile.tokenize_listed
    (hp : p.keywords = .ofList ws)
    (hw : Settings.isIdentifier w = true)
    (hmem : w ∈ ws) :
    p.tokenize w.toList = [.keyword w] := by
  rw [p.tokenize_piece (Piece.isPiece_of_isIdentifier hw),
    classify_of_listed] <;>
    rw [Piece.text_ofText, String.ofList_toList]
  rw [hp]
  exact KeywordSet.contains_ofList_of_mem hw hmem

theorem Token.keyword_eq (w : String) :
    keyword w = ⟨"KEYWORD_" ++ String.ofList (Text.uppercase w.toList)⟩ := by
  have htag : String.ofList keywordTag = "KEYWORD_" := String.ofList_toList
  rw [keyword, String.ofList_append, htag]

end Listed

namespace Settings

theorem tokenize_listed_of_valid
    {s : Settings} {l : Language} {o : ProfileOverride} {ws : List String}
    {w : String}
    (hvalid : s.fault? = none)
    (hone : s.OneForEach)
    (hentry : (l, o) ∈ s.overrides)
    (hwords : o.keywords = some ws)
    (hw : w ∈ ws) :
    s.tokenizer.tokenize w l = [.keyword w] := by
  have hidentifiers := hasIdentifiers_of_fault?_eq_none hvalid (l, o) hentry
  rw [hasIdentifiers, hwords, Option.getD_some,
    List.all_eq_true] at hidentifiers
  have hreserved : (s.tokenizer.profile l).keywords = .ofList ws := by
    rw [profile_tokenizer_of_mem hone hentry, ProfileOverride.apply, hwords]
    rfl
  exact Profile.tokenize_listed hreserved (hidentifiers w hw) hw

/-- An identifier is a text that is cut into one word.  So under settings
without a fault each word that a language lists is one tagged token of it,
whatever the case of its letters. -/
theorem listed_words_are_tagged :
    (∀ w : String, isIdentifier w = true ↔
      Piece.lex w.toList = [.word w.toList]) ∧
      ∀ s : Settings, s.fault? = none → s.OneForEach →
        ∀ l o ws, (l, o) ∈ s.overrides → o.keywords = some ws → ∀ w ∈ ws,
          ∀ x, Text.asciiLowered x = Text.asciiLowered w →
            s.tokenizer.tokenize x l =
              [⟨"KEYWORD_" ++ String.ofList (Text.uppercase w.toList)⟩] := by
  refine ⟨fun w => isIdentifier_iff_lex, ?_⟩
  intro s hvalid hone l o ws hentry hwords w hw x hletters
  have hsame : SameLetters x.toList w.toList := by
    apply sameLetters_of_map_eq
    simpa [Text.asciiLowered] using congrArg String.toList hletters
  calc
    s.tokenizer.tokenize x l = s.tokenizer.tokenize w l :=
      Profile.tokenize_eq_of_sameLetters _ hsame
    _ = [.keyword w] := tokenize_listed_of_valid hvalid hone hentry hwords hw
    _ = [⟨"KEYWORD_" ++ String.ofList (Text.uppercase w.toList)⟩] := by
      rw [Token.keyword_eq]

/-- Words in two languages, one of which has its comments replaced as well. -/
def ownWords : Settings where
  overrides := [(.javascript, { keywords := some ["function", "_let2"] }),
    (.python, { keywords := some ["Self"], comments := some .cStyle })]

theorem listed_words_in_capitals :
    ownWords.fault? = none ∧ ownWords.OneForEach ∧
      ownWords.tokenizer.tokenize "_LeT2" .javascript = [⟨"KEYWORD__LET2"⟩] ∧
      ownWords.tokenizer.tokenize "sELF" .python = [⟨"KEYWORD_SELF"⟩] := by
  have hvalid : ownWords.fault? = none := by decide +kernel
  have hone : ownWords.OneForEach := by decide
  have htagged := listed_words_are_tagged.2 ownWords hvalid hone
  refine ⟨hvalid, hone, ?_, ?_⟩
  · exact htagged .javascript { keywords := some ["function", "_let2"] }
      ["function", "_let2"]
      (by decide) rfl "_let2" (by decide) "_LeT2" (by decide +kernel)
  · exact htagged .python
      { keywords := some ["Self"], comments := some .cStyle } ["Self"]
      (by decide) rfl "Self" (by decide) "sELF" (by decide +kernel)

end Settings

end Resemblance
