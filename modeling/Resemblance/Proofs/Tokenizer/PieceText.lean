import Resemblance.Proofs.Text.DecimalDigit
import Resemblance.Proofs.Text.Joining
import Resemblance.Proofs.Tokenizer.LetterCase
import Resemblance.Settings

/-!
# The texts of pieces and of tokens

A piece holds letters, digits and symbols and nothing else, so its letters are
mapped one by one to the other case and it stays a piece of the same kind.  A
token is such a piece, or the tag with a piece behind it.  The tag and a word
make one word, but the tag and a number or a symbol make two pieces.
-/

namespace Resemblance

open Text

namespace Piece

section Characters

/-- The character may stand in a piece. -/
def belongs (c : Char) : Bool := isWordPart c || isDecimalDigit c || isSymbol c

variable {c : Char}

theorem belongs_of_isWordPart (hc : isWordPart c = true) :
    belongs c = true := by
  rw [belongs, hc, Bool.true_or, Bool.true_or]

theorem belongs_of_isDecimalDigit (hc : isDecimalDigit c = true) :
    belongs c = true := by
  rw [belongs, hc, Bool.or_true, Bool.true_or]

theorem belongs_of_isSymbol (hc : isSymbol c = true) : belongs c = true := by
  rw [belongs, hc, Bool.or_true]

theorem belongs_cases (hc : belongs c = true) :
    isWordPart c = true ∨ isDecimalDigit c = true ∨ isSymbol c = true := by
  rwa [belongs, Bool.or_eq_true, Bool.or_eq_true, or_assoc] at hc

theorem isWordPart_of_isWordStart (hc : isWordStart c = true) :
    isWordPart c = true := by
  rw [isWordStart, Bool.or_eq_true] at hc
  rcases hc with hletter | hunderscore
  · rw [isWordPart, Char.isAlphanum, hletter, Bool.true_or, Bool.true_or]
  · rw [isWordPart, hunderscore, Bool.or_true]

theorem ascii_of_isWordPart (hc : isWordPart c = true) : c.toNat < 128 := by
  rw [isWordPart, Bool.or_eq_true, beq_iff_eq] at hc
  rcases hc with halphanum | rfl
  · exact ascii_of_isAlphanum halphanum
  · decide

/-- What holds for all characters of ASCII in the list holds for those of a
text. -/
theorem apply_ascii
    {f : Char → Bool}
    (hall : ((List.range 128).map Char.ofNat).all f = true)
    (hc : c.toNat < 128) :
    f c = true :=
  List.all_eq_true.1 hall c
    (List.mem_map.2 ⟨c.toNat, List.mem_range.2 hc, Char.ofNat_toNat c⟩)

/-- What holds for the symbols of the list holds for every symbol. -/
theorem apply_symbol
    {f : Char → Bool}
    (hall : symbols.all f = true)
    (hc : isSymbol c = true) :
    f c = true :=
  List.all_eq_true.1 hall c (List.contains_iff_mem.1 hc)

theorem ascii_of_isSymbol (hc : isSymbol c = true) : c.toNat < 128 := by
  have hascii :=
    apply_symbol (f := fun c => decide (c.toNat < 128)) (by decide) hc
  exact of_decide_eq_true hascii

theorem not_isWordStart_of_isDecimalDigit (hc : isDecimalDigit c = true) :
    isWordStart c = false := by
  rw [Bool.eq_false_iff]
  intro hstart
  have hkind := apply_ascii (f := fun c => !(isDecimalDigit c && isWordStart c))
    (by decide +kernel) (ascii_of_isWordPart (isWordPart_of_isWordStart hstart))
  rw [hc, hstart] at hkind
  contradiction

theorem not_isWordStart_of_isSymbol (hc : isSymbol c = true) :
    isWordStart c = false := by
  have hkind := apply_symbol (f := fun c => !isWordStart c) (by decide) hc
  rwa [Bool.not_eq_true'] at hkind

theorem not_isDecimalDigit_of_isSymbol (hc : isSymbol c = true) :
    isDecimalDigit c = false := by
  have hkind := apply_symbol (f := fun c => !isDecimalDigit c) (by decide) hc
  rwa [Bool.not_eq_true'] at hkind

theorem not_blank_of_belongs (hc : belongs c = true) : isBlank c = false := by
  rcases belongs_cases hc with hword | hdigit | hsymbol
  · have hsolid := apply_ascii (f := fun c => !(isWordPart c && isBlank c))
      (by decide +kernel) (ascii_of_isWordPart hword)
    rwa [hword, Bool.true_and, Bool.not_eq_true'] at hsolid
  · exact not_blank_of_isDecimalDigit hdigit
  · have hsolid := apply_symbol (f := fun c => !isBlank c) (by decide) hsymbol
    rwa [Bool.not_eq_true'] at hsolid

theorem lowerLetter_of_belongs (hc : belongs c = true) :
    lowerLetter c = [c.toLower] := by
  rcases belongs_cases hc with hword | hdigit | hsymbol
  · exact if_pos (ascii_of_isWordPart hword)
  · exact lowerLetter_of_isDecimalDigit hdigit
  · exact if_pos (ascii_of_isSymbol hsymbol)

theorem upperLetter_of_belongs (hc : belongs c = true) :
    upperLetter c = [c.toUpper] := by
  rcases belongs_cases hc with hword | hdigit | hsymbol
  · exact if_pos (ascii_of_isWordPart hword)
  · exact upperLetter_of_isDecimalDigit hdigit
  · exact if_pos (ascii_of_isSymbol hsymbol)

theorem belongs_toLower (c : Char) : belongs c.toLower = belongs c := by
  rw [belongs, belongs, isWordPart_toLower, isDecimalDigit_toLower,
    isSymbol_toLower]

end Characters

section Shape

/-- The text is one piece from end to end. -/
inductive IsPiece : List Char → Prop where
  | word {c : Char} {rest : List Char} (hc : isWordStart c = true)
      (hrest : ∀ d ∈ rest, isWordPart d = true) : IsPiece (c :: rest)
  | number {c : Char} {rest : List Char} (hc : isDecimalDigit c = true)
      (hrest : ∀ d ∈ rest, isDecimalDigit d = true) : IsPiece (c :: rest)
  | symbol {c : Char} (hc : isSymbol c = true) : IsPiece [c]

variable {w : List Char}

theorem IsPiece.belongs (hw : IsPiece w) : ∀ c ∈ w, belongs c = true := by
  intro d hd
  cases hw with
  | word hc hrest =>
      rcases List.mem_cons.1 hd with rfl | hd
      · exact belongs_of_isWordPart (isWordPart_of_isWordStart hc)
      · exact belongs_of_isWordPart (hrest d hd)
  | number hc hrest =>
      rcases List.mem_cons.1 hd with rfl | hd
      · exact belongs_of_isDecimalDigit hc
      · exact belongs_of_isDecimalDigit (hrest d hd)
  | symbol hc =>
      rw [List.mem_singleton.1 hd]
      exact belongs_of_isSymbol hc

theorem IsPiece.ne_nil (hw : IsPiece w) : w ≠ [] := by
  cases hw <;> exact List.cons_ne_nil _ _

/-- The slash is in no word and in no number. -/
theorem IsPiece.eq_slash (hw : IsPiece w) (hslash : '/' ∈ w) : w = ['/'] := by
  cases hw with
  | word hc hrest =>
      rcases List.mem_cons.1 hslash with rfl | hslash
      · exact absurd hc (by decide)
      · exact absurd (hrest _ hslash) (by decide)
  | number hc hrest =>
      rcases List.mem_cons.1 hslash with rfl | hslash
      · exact absurd hc (by decide)
      · exact absurd (hrest _ hslash) (by decide)
  | symbol hc =>
      rw [List.mem_singleton.1 hslash]

theorem IsPiece.map
    {f : Char → Char}
    (hstart : ∀ c, isWordStart (f c) = isWordStart c)
    (hpart : ∀ c, isWordPart (f c) = isWordPart c)
    (hdigit : ∀ c, isDecimalDigit (f c) = isDecimalDigit c)
    (hsymbol : ∀ c, isSymbol (f c) = isSymbol c)
    (hw : IsPiece w) :
    IsPiece (w.map f) := by
  cases hw with
  | word hc hrest =>
      refine IsPiece.word ((hstart _).trans hc) ?_
      intro d hd
      obtain ⟨e, he, rfl⟩ := List.mem_map.1 hd
      exact (hpart e).trans (hrest e he)
  | number hc hrest =>
      refine IsPiece.number ((hdigit _).trans hc) ?_
      intro d hd
      obtain ⟨e, he, rfl⟩ := List.mem_map.1 hd
      exact (hdigit e).trans (hrest e he)
  | symbol hc => exact IsPiece.symbol ((hsymbol _).trans hc)

theorem IsPiece.map_toLower (hw : IsPiece w) : IsPiece (w.map Char.toLower) :=
  hw.map isWordStart_toLower isWordPart_toLower isDecimalDigit_toLower
    isSymbol_toLower

theorem matchLength_of_isWordStart
    {c : Char}
    (hc : isWordStart c = true)
    (rest : List Char) :
    pattern.matchLength (c :: rest) = 1 + (rest.takeWhile isWordPart).length :=
  if_pos hc

theorem matchLength_of_isDecimalDigit
    {c : Char}
    (hc : isDecimalDigit c = true)
    (rest : List Char) :
    pattern.matchLength (c :: rest) =
      1 + (rest.takeWhile isDecimalDigit).length := by
  simp only [pattern, not_isWordStart_of_isDecimalDigit hc, hc,
    Bool.false_eq_true, if_true, if_false]

theorem matchLength_of_isSymbol
    {c : Char}
    (hc : isSymbol c = true)
    (rest : List Char) :
    pattern.matchLength (c :: rest) = 1 := by
  simp only [pattern, not_isWordStart_of_isSymbol hc,
    not_isDecimalDigit_of_isSymbol hc, hc, Bool.false_eq_true, if_true,
    if_false]

theorem take_matched
    (f : Char → Bool)
    (c : Char)
    (rest : List Char) :
    (c :: rest).take (1 + (rest.takeWhile f).length) =
      c :: rest.takeWhile f := by
  have hprefix :=
    List.prefix_iff_eq_take.1 (List.takeWhile_prefix f (l := rest))
  rw [Nat.add_comm, List.take_succ_cons, ← hprefix]

theorem isPiece_of_mem_findAll
    {t : List Char}
    (hw : w ∈ pattern.findAll t) :
    IsPiece w := by
  obtain ⟨u, hne, hmatch, rfl⟩ := Pattern.mem_findAll hw
  obtain ⟨c, rest, rfl⟩ := List.exists_cons_of_ne_nil hne
  by_cases hword : isWordStart c = true
  · rw [matchLength_of_isWordStart hword, take_matched]
    exact IsPiece.word hword (List.all_eq_true.1 List.all_takeWhile)
  by_cases hdigit : isDecimalDigit c = true
  · rw [matchLength_of_isDecimalDigit hdigit, take_matched]
    exact IsPiece.number hdigit (List.all_eq_true.1 List.all_takeWhile)
  by_cases hsymbol : isSymbol c = true
  · rw [matchLength_of_isSymbol hsymbol]
    exact IsPiece.symbol hsymbol
  · simp [pattern, hword, hdigit, hsymbol] at hmatch

/-- The piece is of the kind that its text is. -/
inductive WellFormed : Piece → Prop where
  | word {c : Char} {rest : List Char} (hc : isWordStart c = true)
      (hrest : ∀ d ∈ rest, isWordPart d = true) : WellFormed (word (c :: rest))
  | number {c : Char} {rest : List Char} (hc : isDecimalDigit c = true)
      (hrest : ∀ d ∈ rest, isDecimalDigit d = true) :
          WellFormed (number (c :: rest))
  | symbol {c : Char} (hc : isSymbol c = true) : WellFormed (symbol [c])

theorem IsPiece.exists_wellFormed (hw : IsPiece w) :
    ∃ p, WellFormed p ∧ p.text = w := by
  cases hw with
  | word hc hrest => exact ⟨_, .word hc hrest, rfl⟩
  | number hc hrest => exact ⟨_, .number hc hrest, rfl⟩
  | symbol hc => exact ⟨_, .symbol hc, rfl⟩

theorem WellFormed.isPiece
    {p : Piece}
    (hp : p.WellFormed) :
    IsPiece p.text := by
  cases hp with
  | word hc hrest => exact .word hc hrest
  | number hc hrest => exact .number hc hrest
  | symbol hc => exact .symbol hc

/-- The characters that make a piece of this kind longer. -/
def goesOn : Piece → Char → Bool
  | word _ => isWordPart
  | number _ => isDecimalDigit
  | symbol _ => fun _ => false

theorem goesOn_of_not_belongs
    {c : Char}
    (p : Piece)
    (hc : Piece.belongs c = false) :
    p.goesOn c = false := by
  rw [Piece.belongs, Bool.or_eq_false_iff, Bool.or_eq_false_iff] at hc
  cases p with
  | word _ => exact hc.1.1
  | number _ => exact hc.1.2
  | symbol _ => rfl

theorem WellFormed.matchLength_append
    {p : Piece} {t : List Char}
    (hp : p.WellFormed)
    (hstop : ∀ c ∈ t.head?, p.goesOn c = false) :
    pattern.matchLength (p.text ++ t) = p.text.length := by
  cases hp with
  | word hc hrest =>
      rw [text, List.cons_append, matchLength_of_isWordStart hc,
        takeWhile_append_of_stop hrest hstop, List.length_cons, Nat.add_comm]
  | number hc hrest =>
      rw [text, List.cons_append, matchLength_of_isDecimalDigit hc,
        takeWhile_append_of_stop hrest hstop, List.length_cons, Nat.add_comm]
  | symbol hc => exact matchLength_of_isSymbol hc t

theorem IsPiece.matchLength_append
    {t : List Char}
    (hw : IsPiece w)
    (ht : ∀ c ∈ t.head?, Piece.belongs c = false) :
    pattern.matchLength (w ++ t) = w.length := by
  rcases hw.exists_wellFormed with ⟨p, hp, rfl⟩
  exact hp.matchLength_append fun c hc => p.goesOn_of_not_belongs (ht c hc)

theorem IsPiece.whole (hw : IsPiece w) : pattern.Whole ' ' w := by
  apply Pattern.Whole.of_append hw.ne_nil
  intro t ht
  apply hw.matchLength_append
  intro c hc
  rw [ht c hc]
  decide

end Shape

section Case

variable {w : List Char}

theorem lowercase_of_belongs (hw : ∀ c ∈ w, belongs c = true) :
    lowercase w = w.map Char.toLower := by
  unfold lowercase
  generalize [] = before
  induction w generalizing before with
  | nil => rfl
  | cons c w ih =>
      have hc := hw c List.mem_cons_self
      have hsigma : (c == 'Σ') = false := by
        rw [beq_eq_false_iff_ne]
        rintro rfl
        exact absurd hc (by decide +kernel)
      rw [lowercaseFrom, hsigma, lowerLetter_of_belongs hc,
        ih fun d hd => hw d (List.mem_cons_of_mem c hd)]
      rfl

theorem uppercase_of_belongs (hw : ∀ c ∈ w, belongs c = true) :
    uppercase w = w.map Char.toUpper := by
  unfold uppercase
  rw [← List.flatMap_singleton' (w.map Char.toUpper), List.flatMap_map]
  exact List.flatMap_congr fun c hc => upperLetter_of_belongs (hw c hc)

end Case

end Piece

section Tokens

variable {w t : List Char} {k : Token} {p : Profile}

theorem Token.toList_keyword (hw : ∀ c ∈ w, Piece.belongs c = true) :
    (Token.keyword (String.ofList w)).text.toList =
      keywordTag ++ w.map Char.toUpper := by
  rw [keyword, String.toList_ofList, String.toList_ofList,
    Piece.uppercase_of_belongs hw]

theorem Token.toList_ordinary (hw : ∀ c ∈ w, Piece.belongs c = true) :
    (Token.ordinary (String.ofList w)).text.toList = w.map Char.toLower := by
  rw [ordinary, Text.lowercased, String.toList_ofList, String.toList_ofList,
    Piece.lowercase_of_belongs hw]

theorem Profile.text_of_mem_tokenize (hk : k ∈ p.tokenize t) :
    ∃ w, Piece.IsPiece w ∧
      (p.keywords.contains (String.ofList w) = true ∧
          k.text.toList = Token.keywordTag ++ w.map Char.toUpper ∨
        k.text.toList = w.map Char.toLower) := by
  rw [tokenize_eq] at hk
  obtain ⟨a, ha, rfl⟩ := List.mem_map.1 hk
  obtain ⟨w, hmatch, rfl⟩ := List.mem_map.1 ha
  have hw := Piece.isPiece_of_mem_findAll hmatch
  refine ⟨w, hw, ?_⟩
  unfold classify
  rw [Piece.text_ofText]
  by_cases hreserved : p.keywords.contains (String.ofList w) = true
  · left
    rw [if_pos hreserved]
    exact ⟨hreserved, Token.toList_keyword hw.belongs⟩
  · right
    rw [if_neg hreserved]
    exact Token.toList_ordinary hw.belongs

theorem Profile.ne_nil_of_mem_tokenize (hk : k ∈ p.tokenize t) :
    k.text.toList ≠ [] := by
  obtain ⟨w, hw, ⟨_, htext⟩ | htext⟩ := text_of_mem_tokenize hk
  · rw [htext]
    exact List.append_ne_nil_of_left_ne_nil (by decide) _
  · rw [htext]
    exact hw.map_toLower.ne_nil

theorem Profile.belongs_of_mem_tokenize (hk : k ∈ p.tokenize t) :
    ∀ c ∈ k.text.toList, Piece.belongs c = true := by
  obtain ⟨w, hw, ⟨_, htext⟩ | htext⟩ := text_of_mem_tokenize hk
  · intro c hc
    rw [htext, List.mem_append] at hc
    rcases hc with htag | hc
    · have hall : Token.keywordTag.all Piece.belongs = true := by decide +kernel
      exact List.all_eq_true.1 hall c htag
    · obtain ⟨d, hd, rfl⟩ := List.mem_map.1 hc
      rw [apply_toUpper Piece.belongs_toLower]
      exact hw.belongs d hd
  · rw [htext]
    exact hw.map_toLower.belongs

theorem Piece.isWordPart_of_isIdentifier
    {v : String}
    (hv : Settings.isIdentifier v = true) :
    ∀ c ∈ v.toList, isWordPart c = true := by
  unfold Settings.isIdentifier at hv
  split at hv
  next => contradiction
  next c rest hchars =>
    rw [Bool.and_eq_true] at hv
    rw [hchars]
    intro d hd
    rcases List.mem_cons.1 hd with rfl | hd
    · exact isWordPart_of_isWordStart hv.1
    · exact List.all_eq_true.1 hv.2 d hd

/-- Every reserved word is an identifier, as settings demand of the words they
list. -/
def KeywordSet.OnlyIdentifiers (s : KeywordSet) : Prop :=
  ∀ v ∈ s.words.toList, Settings.isIdentifier v = true

/-- If only identifiers are reserved, the tag and the word behind it are one
word. -/
theorem Profile.isPiece_of_mem_tokenize
    (hkeywords : p.keywords.OnlyIdentifiers)
    (hk : k ∈ p.tokenize t) :
    Piece.IsPiece k.text.toList := by
  obtain ⟨w, hw, ⟨hreserved, htext⟩ | htext⟩ := text_of_mem_tokenize hk
  · have hword := Piece.isWordPart_of_isIdentifier
      (hkeywords _ (StringSet.contains_iff.1 hreserved))
    rw [Text.lowercased, String.toList_ofList, String.toList_ofList,
      Piece.lowercase_of_belongs hw.belongs] at hword
    have hrest : ∀ c ∈ "EYWORD_".toList ++ w.map Char.toUpper,
        Piece.isWordPart c = true := by
      intro c hc
      rcases List.mem_append.1 hc with htag | hc
      · have hall : "EYWORD_".toList.all Piece.isWordPart = true := by
          decide +kernel
        exact List.all_eq_true.1 hall c htag
      · obtain ⟨d, hd, rfl⟩ := List.mem_map.1 hc
        rw [apply_toUpper Piece.isWordPart_toLower, ← Piece.isWordPart_toLower]
        exact hword _ (List.mem_map_of_mem hd)
    rw [htext]
    exact Piece.IsPiece.word (c := 'K') (by decide) hrest
  · rw [htext]
    exact hw.map_toLower

end Tokens

end Resemblance
