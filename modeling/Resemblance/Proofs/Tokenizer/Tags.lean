import Resemblance.Proofs.Text.Lowered
import Resemblance.Proofs.Tokenizer.PieceText

/-!
# Tagged words

The tag of a reserved word is written in capitals and a lowered text holds none,
so nothing that is lowered looks like a tagged word.  Both case mappings keep
the characters of a piece apart up to the case of ASCII letters, hence a token
tells its piece up to this case, and its tag tells whether the piece is listed.
-/

namespace Resemblance

open Text

namespace Token

theorem isKeyword_keyword (w : String) : (keyword w).isKeyword = true := by
  rw [isKeyword, keyword, String.toList_ofList, List.isPrefixOf_iff_prefix]
  exact List.prefix_append keywordTag _

theorem isKeyword_ordinary (s : String) : (ordinary s).isKeyword = false := by
  rw [Bool.eq_false_iff]
  intro htagged
  rw [isKeyword, ordinary, Text.lowercased, String.toList_ofList,
    List.isPrefixOf_iff_prefix] at htagged
  have hcapital : 'K' ∈ lowercase s.toList := htagged.subset List.mem_cons_self
  exact absurd (not_isUpper_of_mem_lowercase hcapital) (by decide)

theorem ordinary_ne_keyword (s w : String) : ordinary s ≠ keyword w := by
  intro hsame
  have htagged := isKeyword_keyword w
  rw [← hsame, isKeyword_ordinary] at htagged
  contradiction

end Token

theorem Piece.isPiece_of_mem_lex
    {a : Piece} {t : List Char}
    (ha : a ∈ lex t) :
    IsPiece a.text := by
  obtain ⟨w, hw, rfl⟩ := List.mem_map.1 ha
  rw [text_ofText]
  exact isPiece_of_mem_findAll hw

theorem Piece.IsPiece.lowercased_ne_empty
    {s : String}
    (hs : IsPiece s.toList) :
    Text.lowercased s ≠ "" := by
  intro hempty
  have hchars := congrArg String.toList hempty
  rw [Text.lowercased, String.toList_ofList,
    lowercase_of_belongs hs.belongs] at hchars
  exact hs.map_toLower.ne_nil hchars

/-- Every listed word is looked up trimmed and lowered; what is then empty is
not kept. -/
theorem KeywordSet.contains_ofList_iff
    {ws : List String} {text : String}
    (hne : Text.lowercased text ≠ "") :
    (ofList ws).contains text = true ↔
      ∃ w ∈ ws, Text.lowercased (Text.trimmed w) = Text.lowercased text := by
  rw [contains, ofList, StringSet.contains_ofList, List.mem_filter,
    List.mem_map]
  simp [hne]

namespace Profile

variable {p : Profile} {a b : Piece}

theorem classify_of_listed
    (hlisted : p.keywords.contains (String.ofList a.text) = true) :
    p.classify a = .keyword (String.ofList a.text) :=
  if_pos hlisted

theorem classify_of_not_listed
    (hfree : ¬ p.keywords.contains (String.ofList a.text) = true) :
    p.classify a = .ordinary (String.ofList a.text) :=
  if_neg hfree

theorem isKeyword_classify
    (p : Profile)
    (a : Piece) :
    (p.classify a).isKeyword = p.keywords.contains (String.ofList a.text) := by
  by_cases hlisted : p.keywords.contains (String.ofList a.text) = true
  · rw [classify_of_listed hlisted, Token.isKeyword_keyword, hlisted]
  · rw [classify_of_not_listed hlisted, Token.isKeyword_ordinary,
      Bool.eq_false_iff.2 hlisted]

theorem toList_classify (ha : Piece.IsPiece a.text) :
    (p.classify a).text.toList =
      if p.keywords.contains (String.ofList a.text) = true then
        Token.keywordTag ++ a.text.map Char.toUpper
      else a.text.map Char.toLower := by
  by_cases hlisted : p.keywords.contains (String.ofList a.text) = true
  · rw [classify_of_listed hlisted, if_pos hlisted,
      Token.toList_keyword ha.belongs]
  · rw [classify_of_not_listed hlisted, if_neg hlisted,
      Token.toList_ordinary ha.belongs]

theorem classify_eq_iff
    (ha : Piece.IsPiece a.text)
    (hb : Piece.IsPiece b.text) :
    p.classify a = p.classify b ↔
      a.text.map Char.toLower = b.text.map Char.toLower := by
  constructor
  · intro hsame
    have hreserved := congrArg Token.isKeyword hsame
    rw [isKeyword_classify, isKeyword_classify] at hreserved
    have htexts := congrArg (fun k => k.text.toList) hsame
    simp only [toList_classify ha, toList_classify hb, hreserved] at htexts
    split at htexts
    · exact map_toLower_eq_of_map_toUpper_eq (List.append_cancel_left htexts)
    · exact htexts
  · intro hletters
    exact p.classify_eq_of_sameLetters (sameLetters_of_map_eq hletters)

theorem isKeyword_classify_ofList_iff
    {style : CommentStyle} {ws : List String}
    (ha : Piece.IsPiece a.text) :
    (classify ⟨style, .ofList ws⟩ a).isKeyword = true ↔
      ∃ w ∈ ws,
        Text.lowercased (Text.trimmed w) =
          Text.lowercased (String.ofList a.text) := by
  rw [isKeyword_classify]
  apply KeywordSet.contains_ofList_iff
  apply Piece.IsPiece.lowercased_ne_empty
  rwa [String.toList_ofList]

/-- Lowering never gives a tag.  The tokens of two pieces are equal exactly if
the pieces have the same letters, and a piece is tagged exactly if it is listed,
up to case and blanks around it. -/
theorem tags_tell_pieces :
    (∀ s w : String,
      (Token.ordinary s).isKeyword = false ∧
        Token.ordinary s ≠ Token.keyword w) ∧
      (∀ (p : Profile) (t u : List Char), ∀ a ∈ Piece.lex t, ∀ b ∈ Piece.lex u,
        (p.classify a = p.classify b ↔
          a.text.map Char.toLower = b.text.map Char.toLower)) ∧
      ∀ (style : CommentStyle) (ws : List String) (t : List Char),
        ∀ a ∈ Piece.lex t, ((classify ⟨style, .ofList ws⟩ a).isKeyword = true ↔
          ∃ w ∈ ws, Text.lowercased (Text.trimmed w) =
            Text.lowercased (String.ofList a.text)) := by
  refine
    ⟨fun s w => ⟨Token.isKeyword_ordinary s, Token.ordinary_ne_keyword s w⟩,
      ?_, ?_⟩
  · intro p t u a ha b hb
    exact classify_eq_iff (Piece.isPiece_of_mem_lex ha)
      (Piece.isPiece_of_mem_lex hb)
  · intro style ws t a ha
    exact isKeyword_classify_ofList_iff (Piece.isPiece_of_mem_lex ha)

/-- Listing the sign for kelvin reserves the letter that it is lowered to. -/
theorem tags_of_kelvin_sign :
    Piece.word ['K'] ∈ Piece.lex "K = K".toList ∧
      Piece.word ['k'] ∈ Piece.lex "2k".toList ∧
      classify ⟨.none, .ofList [" K"]⟩ (.word ['K']) =
        classify ⟨.none, .ofList [" K"]⟩ (.word ['k']) ∧
      (classify ⟨.none, .ofList [" K"]⟩ (.word ['k'])).isKeyword = true := by
  have hcapital : Piece.word ['K'] ∈ Piece.lex "K = K".toList := by
    decide +kernel
  have hsmall : Piece.word ['k'] ∈ Piece.lex "2k".toList := by decide +kernel
  obtain ⟨_, htell, hlisted⟩ := tags_tell_pieces
  refine ⟨hcapital, hsmall, ?_, ?_⟩
  · exact (htell _ _ _ _ hcapital _ hsmall).2 (by decide)
  · exact (hlisted .none [" K"] _ _ hsmall).2
      ⟨" K", List.mem_singleton_self _, by decide +kernel⟩

end Profile

end Resemblance
