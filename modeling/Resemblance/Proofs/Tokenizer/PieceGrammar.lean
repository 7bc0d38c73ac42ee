import Resemblance.Proofs.Tokenizer.PieceText

/-!
# The grammar of pieces

A text is cut into words, numbers and symbols with nothing but foreign
characters between them, and a word or a number stops only where the next
character cannot go on with it.  Every text has exactly one such cut, and it
loses no other characters.
-/

namespace Resemblance.Piece

open Text

/-- The pieces stand in the text one after the other, and what stands between
them belongs to no piece. -/
inductive Cut : List Char → List Piece → Prop where
  | nil : Cut [] []
  | foreign {c : Char} {t : List Char} {ps : List Piece}
      (hc : belongs c = false)
      (hrest : Cut t ps) :
      Cut (c :: t) ps
  | piece {p : Piece} {t : List Char} {ps : List Piece}
      (hp : p.WellFormed)
      (hstop : ∀ c ∈ t.head?, p.goesOn c = false)
      (hrest : Cut t ps) :
      Cut (p.text ++ t) (p :: ps)

theorem belongs_eq (c : Char) :
    belongs c = (isWordStart c || isDecimalDigit c || isSymbol c) := by
  by_cases hdigit : c.isDigit = true
  · simp [belongs, isDecimalDigit_of_isDigit hdigit]
  · simp [belongs, isWordPart, isWordStart, Char.isAlphanum, hdigit]

theorem head?_dropWhile_stops
    {f : Char → Bool}
    (t : List Char) :
    ∀ c ∈ (t.dropWhile f).head?, f c = false := by
  intro c hc
  have hstop := List.head?_dropWhile_not f t
  rw [Option.mem_def.1 hc] at hstop
  exact hstop

/-- A text starts with a foreign character or with a piece that is as long as
can be. -/
theorem foreign_or_exists_piece
    (c : Char)
    (t : List Char) :
    belongs c = false ∨ ∃ (p : Piece) (rest : List Char), p.WellFormed ∧
      (∀ d ∈ rest.head?, p.goesOn d = false) ∧ c :: t = p.text ++ rest := by
  by_cases hword : isWordStart c = true
  · refine .inr
      ⟨word (c :: t.takeWhile isWordPart), t.dropWhile isWordPart, ?_, ?_, ?_⟩
    · exact .word hword fun d hd => List.mem_takeWhile_imp hd
    · exact head?_dropWhile_stops t
    · simp [text]
  by_cases hdigit : isDecimalDigit c = true
  · refine .inr
      ⟨number (c :: t.takeWhile isDecimalDigit), t.dropWhile isDecimalDigit,
        ?_, ?_, ?_⟩
    · exact .number hdigit fun d hd => List.mem_takeWhile_imp hd
    · exact head?_dropWhile_stops t
    · simp [text]
  by_cases hsymbol : isSymbol c = true
  · exact .inr ⟨symbol [c], t, .symbol hsymbol, fun _ _ => rfl, rfl⟩
  · simp [belongs_eq, hword, hdigit, hsymbol]

theorem exists_cut (t : List Char) : ∃ ps, Cut t ps := by
  induction hn : t.length using Nat.strongRecOn generalizing t with
  | ind n ih =>
      cases t with
      | nil => exact ⟨[], .nil⟩
      | cons c t =>
          rcases foreign_or_exists_piece c t with
            hforeign | ⟨p, rest, hp, hstop, htext⟩
          · rcases ih t.length (by simp [← hn]) t rfl with ⟨ps, hps⟩
            exact ⟨ps, .foreign hforeign hps⟩
          · have hshorter : rest.length < n := by
              have hpos := List.length_pos_iff.2 hp.isPiece.ne_nil
              rw [htext, List.length_append] at hn
              omega
            rcases ih rest.length hshorter rest rfl with ⟨ps, hps⟩
            exact ⟨p :: ps, htext ▸ .piece hp hstop hps⟩

section Lexing

theorem ofText_text {p : Piece} (hp : p.WellFormed) : ofText p.text = p := by
  cases hp with
  | word hc _ => simp [text, ofText, hc]
  | number hc _ => simp [text, ofText, hc, not_isWordStart_of_isDecimalDigit hc]
  | symbol hc =>
      simp [text, ofText, not_isWordStart_of_isSymbol hc,
        not_isDecimalDigit_of_isSymbol hc]

theorem lex_cons_of_foreign
    {c : Char}
    (hc : belongs c = false)
    (t : List Char) :
    lex (c :: t) = lex t := by
  have hmatch : pattern.matchLength (c :: t) = 0 := by
    simp only [belongs_eq, Bool.or_eq_false_iff] at hc
    simp [pattern, hc]
  rw [lex, Pattern.findAll_cons_of_unmatched hmatch, lex]

theorem lex_append_of_stop
    {p : Piece} {t : List Char}
    (hp : p.WellFormed)
    (hstop : ∀ c ∈ t.head?, p.goesOn c = false) :
    lex (p.text ++ t) = p :: lex t := by
  have hne := hp.isPiece.ne_nil
  have hlength := hp.matchLength_append hstop
  have hmatch : pattern.matchLength (p.text ++ t) ≠ 0 := by
    simp [hlength, hne]
  rw [lex, Pattern.findAll_of_matched (by simp [hne]) hmatch, hlength,
    List.take_left, List.drop_left, List.map_cons, ofText_text hp, lex]

theorem Cut.lex_eq
    {t : List Char} {ps : List Piece}
    (h : Cut t ps) :
    lex t = ps := by
  induction h with
  | nil => rfl
  | foreign hc _ ih => rw [lex_cons_of_foreign hc, ih]
  | piece hp hstop _ ih => rw [lex_append_of_stop hp hstop, ih]

theorem cut_lex (t : List Char) : Cut t (lex t) := by
  rcases exists_cut t with ⟨ps, hps⟩
  rwa [hps.lex_eq]

end Lexing

theorem Cut.flatMap_text
    {t : List Char} {ps : List Piece}
    (h : Cut t ps) :
    ps.flatMap text = t.filter belongs := by
  induction h with
  | nil => rfl
  | foreign hc _ ih => rw [List.filter_cons_of_neg (by simp [hc]), ih]
  | piece hp _ _ ih =>
      rw [List.flatMap_cons, List.filter_append, ih,
        List.filter_eq_self.2 hp.isPiece.belongs]

theorem Cut.eq_nil_iff
    {t : List Char} {ps : List Piece}
    (h : Cut t ps) :
    ps = [] ↔ ∀ c ∈ t, belongs c = false := by
  induction h with
  | nil => simp
  | foreign hc _ ih => simp [hc, ih]
  | @piece p t ps hp _ _ _ =>
      rcases List.exists_mem_of_ne_nil p.text hp.isPiece.ne_nil with ⟨c, hc⟩
      have hbelongs := hp.isPiece.belongs c hc
      simp only [reduceCtorEq, false_iff]
      intro hforeign
      simp [hforeign c (List.mem_append_left t hc)] at hbelongs

/-- The pieces of a text are its only cut, and they hold all characters that
belong to a piece. -/
theorem lex_only_cut (t : List Char) :
    (∀ ps, Cut t ps ↔ lex t = ps) ∧ (lex t).flatMap text = t.filter belongs ∧
      (lex t = [] ↔ ∀ c ∈ t, belongs c = false) := by
  refine ⟨fun ps => ⟨Cut.lex_eq, ?_⟩, (cut_lex t).flatMap_text,
    (cut_lex t).eq_nil_iff⟩
  rintro rfl
  exact cut_lex t

example : symbols.length = 17 := rfl

example : lex "naïve_2٣4b".toList =
    [word "na".toList, word "ve_2".toList, number "٣4".toList,
      word "b".toList] := by
  decide +kernel

end Resemblance.Piece
