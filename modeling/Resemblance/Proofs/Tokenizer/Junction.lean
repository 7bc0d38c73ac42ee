import Resemblance.Analysis
import Resemblance.Proofs.Text.Enclosed
import Resemblance.Proofs.Tokenizer.Chunks
import Resemblance.Proofs.Tokenizer.Flattening
import Resemblance.Proofs.Tokenizer.PieceGrammar
import Resemblance.Proofs.Tokenizer.Tags

/-!
# Where a block comment was cut out

Nothing takes the place of a block, so the texts on its two sides meet.  If the
first ends with a word or a number that the second goes on with, that piece
becomes longer, and its token is another than before.  Otherwise the tokens are
the ones that a space in the place of the block would have given.
-/

namespace Resemblance

open Text

namespace Piece

section End

variable {p s t : List Char} {a q : Piece} {c : Char}

/-- The last piece of the text stands at its end. -/
def EndsWith (t : List Char) (a : Piece) : Prop :=
  a ∈ (lex t).getLast? ∧ a.text <:+ t

/-- The text behind makes the piece at the end of `p` longer. -/
def Meets (p s : List Char) : Prop :=
  ∃ a, EndsWith p a ∧ ∃ c ∈ s.head?, a.goesOn c = true

instance (p s : List Char) : Decidable (Meets p s) :=
  decidable_of_iff
    (((lex p).getLast?.any fun a => a.text.isSuffixOf p &&
      s.head?.any a.goesOn) = true)
    (by simp [Meets, EndsWith, Option.any_eq_true, and_assoc])

theorem length_text_le (ha : a ∈ lex t) : a.text.length ≤ t.length := by
  have hall : a.text.Sublist ((lex t).flatMap text) :=
    List.sublist_flatten_of_mem (List.mem_map_of_mem ha)
  rw [(cut_lex t).flatMap_text] at hall
  exact (hall.trans List.filter_sublist).length_le

theorem suffix_append_iff
    (ha : a ∈ lex t)
    (x : List Char) :
    a.text <:+ x ++ t ↔ a.text <:+ t := by
  constructor
  · intro h
    exact List.suffix_of_suffix_length_le h (List.suffix_append x t)
      (length_text_le ha)
  · intro h
    exact h.trans (List.suffix_append x t)

theorem endsWith_cons_of_foreign (hc : belongs c = false) :
    EndsWith (c :: t) a ↔ EndsWith t a := by
  unfold EndsWith
  rw [lex_cons_of_foreign hc]
  exact and_congr_right fun ha =>
    suffix_append_iff (List.mem_of_getLast? ha) [c]

theorem lex_text (hq : q.WellFormed) : lex q.text = [q] := by
  have hlex := lex_append_of_stop hq (t := []) (by simp)
  rwa [List.append_nil, (Cut.nil).lex_eq] at hlex

theorem endsWith_text (hq : q.WellFormed) : EndsWith q.text a ↔ a = q := by
  unfold EndsWith
  rw [lex_text hq, List.getLast?_singleton, Option.mem_some]
  constructor
  · rintro ⟨rfl, -⟩
    rfl
  · rintro rfl
    exact ⟨rfl, List.suffix_rfl⟩

theorem endsWith_append
    (hq : q.WellFormed)
    (hstop : ∀ c ∈ t.head?, q.goesOn c = false)
    (ht : t ≠ []) :
    EndsWith (q.text ++ t) a ↔ EndsWith t a := by
  unfold EndsWith
  rw [lex_append_of_stop hq hstop]
  by_cases hnone : lex t = []
  · -- The rest is foreign, so the last piece is not at the end.
    have hforeign := (cut_lex t).eq_nil_iff.1 hnone
    simp only [hnone, List.getLast?_singleton, List.getLast?_nil,
      Option.mem_def, reduceCtorEq, false_and, iff_false, not_and,
      Option.some.injEq]
    rintro rfl ⟨u, hu⟩
    have hlast := congrArg List.getLast? hu
    rw [List.getLast?_append_of_ne_nil u hq.isPiece.ne_nil,
      List.getLast?_append_of_ne_nil _ ht,
      List.getLast?_eq_some_getLast ht] at hlast
    have hbelongs := hq.isPiece.belongs _ (List.mem_of_getLast? hlast)
    rw [hforeign _ (List.getLast_mem ht)] at hbelongs
    contradiction
  · rw [List.getLast?_cons_of_ne_nil hnone]
    exact and_congr_right fun ha =>
      suffix_append_iff (List.mem_of_getLast? ha) q.text

theorem lex_append_of_not_meets (h : ¬ Meets p s) :
    lex (p ++ s) = lex p ++ lex s := by
  have hcut := cut_lex p
  generalize lex p = ps at hcut ⊢
  induction hcut with
  | nil => rfl
  | @foreign c t ps hc hrest ih =>
      rw [List.cons_append, lex_cons_of_foreign hc]
      apply ih
      simpa only [Meets, endsWith_cons_of_foreign hc] using h
  | @piece q t ps hq hstop hrest ih =>
      rw [List.append_assoc]
      by_cases ht : t = []
      · subst ht
        obtain rfl := hrest.eq_nil_iff.2 (by simp)
        rw [List.append_nil] at h
        rw [List.nil_append, lex_append_of_stop hq]
        · rfl
        · intro c hc
          exact Bool.eq_false_iff.2 fun hgoes =>
            h ⟨q, (endsWith_text hq).2 rfl, c, hc, hgoes⟩
      · rw [lex_append_of_stop hq (by rwa [List.head?_append_of_ne_nil t ht]),
          ih]
        · rfl
        · simpa only [Meets, endsWith_append hq hstop ht] using h

/-- The characters that go on with a piece are taken into it. -/
theorem exists_longer
    (hq : q.WellFormed)
    (hc : q.goesOn c = true)
    (s : List Char) :
    ∃ (b : Piece) (rest : List Char), b.WellFormed ∧
      (∀ d ∈ rest.head?, b.goesOn d = false) ∧
      q.text ++ c :: s = b.text ++ rest ∧ q.text.length < b.text.length := by
  cases hq with
  | @word d w hd hw =>
      change isWordPart c = true at hc
      refine ⟨word (d :: w ++ (c :: s).takeWhile isWordPart),
        s.dropWhile isWordPart, .word hd ?_, head?_dropWhile_stops s, ?_, ?_⟩
      · intro e he
        exact (List.mem_append.1 he).elim (hw e) List.mem_takeWhile_imp
      · simp [text, hc]
      · simp [text, hc]
  | @number d w hd hw =>
      change isDecimalDigit c = true at hc
      refine ⟨number (d :: w ++ (c :: s).takeWhile isDecimalDigit),
        s.dropWhile isDecimalDigit, .number hd ?_, head?_dropWhile_stops s,
        ?_, ?_⟩
      · intro e he
        exact (List.mem_append.1 he).elim (hw e) List.mem_takeWhile_imp
      · simp [text, hc]
      · simp [text, hc]
  | symbol hd => contradiction

theorem exists_lex_append_of_meets (h : Meets p s) :
    ∃ before a b later, lex p = before ++ [a] ∧
      lex (p ++ s) = before ++ b :: later ∧
      a.text.length < b.text.length := by
  have hcut := cut_lex p
  generalize lex p = ps at hcut ⊢
  induction hcut with
  | nil =>
      obtain ⟨a, ⟨ha, -⟩, -⟩ := h
      simp [(Cut.nil).lex_eq] at ha
  | @foreign c t ps hc hrest ih =>
      rw [List.cons_append, lex_cons_of_foreign hc]
      apply ih
      simpa only [Meets, endsWith_cons_of_foreign hc] using h
  | @piece q t ps hq hstop hrest ih =>
      by_cases ht : t = []
      · subst ht
        obtain rfl := hrest.eq_nil_iff.2 (by simp)
        rw [List.append_nil] at h ⊢
        obtain ⟨a, ha, c, hc, hgoes⟩ := h
        obtain rfl := (endsWith_text hq).1 ha
        obtain ⟨s, rfl⟩ := List.head?_eq_some_iff.1 hc
        obtain ⟨b, rest, hb, hbstop, htext, hlonger⟩ := exists_longer hq hgoes s
        exact ⟨[], a, b, lex rest, rfl,
          by rw [htext, lex_append_of_stop hb hbstop]; rfl, hlonger⟩
      · rw [List.append_assoc,
          lex_append_of_stop hq (by rwa [List.head?_append_of_ne_nil t ht])]
        obtain ⟨before, a, b, later, hps, hlex, hlonger⟩ :=
          ih (by simpa only [Meets, endsWith_append hq hstop ht] using h)
        exact ⟨q :: before, a, b, later, by rw [hps]; rfl, by rw [hlex]; rfl,
          hlonger⟩

end End

section Collapsing

theorem foreign_of_isBlank
    {z : Char}
    (hz : isBlank z = true) :
    belongs z = false := by
  rw [Bool.eq_false_iff]
  intro hbelongs
  rw [not_blank_of_belongs hbelongs] at hz
  contradiction

/-- Blanks are in no piece and end the one before them, however many there
are. -/
theorem lex_collapse (t : List Char) : lex (collapse t) = lex t := by
  induction hn : t.length using Nat.strongRecOn generalizing t with
  | ind n ih =>
      by_cases hblank : ∃ z ∈ t, isBlank z = true
      · obtain ⟨z, hmem, hz⟩ := hblank
        obtain ⟨x, y, rfl⟩ := List.append_of_mem hmem
        rw [List.length_append, List.length_cons] at hn
        have hx : lex (collapse x) = lex x := ih x.length (by omega) x rfl
        have hy : lex (collapse y) = lex y := ih y.length (by omega) y rfl
        rw [collapse, words_append_of_blank_between hz, lex_intercalate_append,
          lex_append_cons_of_foreign (foreign_of_isBlank hz), ← hx, ← hy]
        rfl
      · by_cases ht : t = []
        · subst ht
          rfl
        · have hone : ∀ w ∈ [t], w ≠ [] ∧ ∀ c ∈ w, isBlank c = false := by
            intro w hw
            rw [List.mem_singleton.1 hw]
            exact ⟨ht,
              fun c hc => Bool.eq_false_iff.2 fun hz => hblank ⟨c, hc, hz⟩⟩
          have hsame := collapse_intercalate hone
          rw [List.intercalate_singleton] at hsame
          rw [hsame]

end Collapsing

end Piece

/-- A text without quotes and without the characters of blocks and of line
comments. -/
def Unmarked (t : List Char) : Prop := ∀ z ∈ ['"', '\'', '/', '*'], z ∉ t

instance (t : List Char) : Decidable (Unmarked t) :=
  decidable_of_iff ((['"', '\'', '/', '*'].all fun z => !t.contains z) = true)
    (by simp [Unmarked])

theorem Unmarked.append
    {p s : List Char}
    (hp : Unmarked p)
    (hs : Unmarked s) :
    Unmarked (p ++ s) := by
  intro z hz hmem
  exact (List.mem_append.1 hmem).elim (hp z hz) (hs z hz)

namespace CommentStyle

theorem cStyle_strip_of_not_mem
    {t : List Char}
    (ht : '/' ∉ t) :
    cStyle.strip t = t := by
  apply strip_of_absent
  · intro o k hblock
    obtain ⟨rfl, -⟩ := Prod.mk.inj (List.mem_singleton.1 hblock)
    exact Absent.of_head_not_mem ht
  · intro marker hmarker
    obtain rfl := Option.some.inj hmarker
    exact Absent.of_head_not_mem ht

theorem cStyle_strip_block
    {p c s : List Char}
    (hp : '/' ∉ p)
    (hs : '/' ∉ s)
    (hc : ¬ ['*', '/'] <:+: c) :
    cStyle.strip (p ++ ['/', '*'] ++ (c ++ ['*', '/'] ++ s)) =
      cStyle.strip (p ++ s) := by
  have hnone : ∀ {t : List Char}, '/' ∉ t →
      cStyle.removeBlocks t = t := fun ht =>
    Pattern.replace_enclosed_of_absent [] (Absent.of_head_not_mem ht)
  have hcut : cStyle.removeBlocks (p ++ ['/', '*'] ++ (c ++ ['*', '/'] ++ s)) =
      p ++ s := by
    rw [cStyle_removeBlocks,
      Pattern.replace_enclosed_block [] (List.cons_ne_nil _ _)
        (List.cons_ne_nil _ _) (onlyAtEnd_of_head_not_mem hp)
        (onlyAtEnd_of_nowhere (by decide) hc),
      ← cStyle_removeBlocks, hnone hs, List.nil_append]
  rw [strip, hcut, strip, hnone (by simp [hp, hs])]

end CommentStyle

namespace Profile

/-- A token tells the length of its piece, so the longer piece has another
token. -/
theorem map_classify_lex_append_iff
    (pr : Profile)
    (p s : List Char) :
    (Piece.lex (p ++ s)).map pr.classify =
        (Piece.lex p).map pr.classify ++ (Piece.lex s).map pr.classify ↔
      ¬ Piece.Meets p s := by
  constructor
  · intro hsame hmeets
    obtain ⟨before, a, b, later, hp, hjoined, hlonger⟩ :=
      Piece.exists_lex_append_of_meets hmeets
    have ha : Piece.IsPiece a.text :=
      Piece.isPiece_of_mem_lex (t := p) (by simp [hp])
    have hb : Piece.IsPiece b.text :=
      Piece.isPiece_of_mem_lex (t := p ++ s) (by simp [hjoined])
    simp only [hp, hjoined, List.map_append, List.map_cons, List.map_nil,
      List.append_assoc, List.append_cancel_left_eq, List.cons_append,
      List.nil_append, List.cons.injEq] at hsame
    have hletters := congrArg List.length ((classify_eq_iff hb ha).1 hsame.1)
    rw [List.length_map, List.length_map] at hletters
    omega
  · intro hapart
    rw [Piece.lex_append_of_not_meets hapart, List.map_append]

variable {pr : Profile} {p c s t : List Char}

theorem tokenize_of_unmarked
    (hstyle : pr.comments = .cStyle)
    (ht : Unmarked t) :
    pr.tokenize t = (Piece.lex t).map pr.classify := by
  have hslash : '/' ∉ t := ht '/' (by simp)
  have hdouble : '"' ∉ t := ht '"' (by simp)
  have hsingle : '\'' ∉ t := ht '\'' (by simp)
  rw [tokenize_eq, canonical, hstyle,
    CommentStyle.cStyle_strip_of_not_mem hslash,
    Literal.mask_of_absent hdouble hsingle, Piece.lex_collapse]

theorem tokenize_block
    (hstyle : pr.comments = .cStyle)
    (hp : Unmarked p)
    (hs : Unmarked s)
    (hc : ¬ ['*', '/'] <:+: c) :
    pr.tokenize (p ++ ['/', '*'] ++ (c ++ ['*', '/'] ++ s)) =
      pr.tokenize (p ++ s) := by
  apply tokenize_eq_of_strip_eq
  rw [hstyle,
    CommentStyle.cStyle_strip_block (hp '/' (by simp)) (hs '/' (by simp)) hc]

theorem tokenize_space
    (hstyle : pr.comments = .cStyle)
    (hp : Unmarked p)
    (hs : Unmarked s) :
    pr.tokenize (p ++ [' '] ++ s) = pr.tokenize p ++ pr.tokenize s := by
  have hspace : Unmarked [' '] := by simp [Unmarked]
  have hspaced : Unmarked (p ++ [' '] ++ s) := (hp.append hspace).append hs
  rw [tokenize_of_unmarked hstyle hp, tokenize_of_unmarked hstyle hs,
    tokenize_of_unmarked hstyle hspaced, List.append_assoc,
    List.singleton_append, Piece.lex_append_cons_of_foreign (by decide +kernel),
    List.map_append]

end Profile

theorem Analysis.ofSources_congr
    {t : Tokenizer} {x y : Source}
    (hxy : x.tokenized t = y.tokenized t)
    (s : ComparisonSettings)
    (refusals : List Exclusion)
    (before after : List Source) :
    ofSources t s refusals (before ++ x :: after) =
      ofSources t s refusals (before ++ y :: after) := by
  simp only [ofSources, List.map_append, List.map_cons, hxy]

/-- A block is cut out with nothing in its place.  The tokens are those of the
text with a space in its place exactly if the two sides do not meet, and then
every analysis is the same, too. -/
theorem Tokenizer.tokenize_block_between
    {t : Tokenizer} {l : Language}
    (hstyle : (t.profile l).comments = .cStyle)
    {p c s : String}
    (hp : Unmarked p.toList)
    (hs : Unmarked s.toList)
    (hc : ¬ ['*', '/'] <:+: c.toList) :
    t.tokenize (p ++ "/*" ++ c ++ "*/" ++ s) l = t.tokenize (p ++ s) l ∧
      t.tokenize (p ++ " " ++ s) l = t.tokenize p l ++ t.tokenize s l ∧
      (t.tokenize (p ++ "/*" ++ c ++ "*/" ++ s) l =
        t.tokenize (p ++ " " ++ s) l ↔
        ¬ Piece.Meets p.toList s.toList) ∧
      (¬ Piece.Meets p.toList s.toList →
        ∀ (id : String) (settings : ComparisonSettings)
            (refusals : List Exclusion) (before after : List Source),
          Analysis.ofSources t settings refusals
              (before ++ ⟨id, l, p ++ "/*" ++ c ++ "*/" ++ s⟩ :: after) =
            Analysis.ofSources t settings refusals
              (before ++ ⟨id, l, p ++ " " ++ s⟩ :: after)) := by
  have hcut : t.tokenize (p ++ "/*" ++ c ++ "*/" ++ s) l =
      t.tokenize (p ++ s) l := by
    simpa [tokenize] using Profile.tokenize_block hstyle hp hs hc
  have hspace : t.tokenize (p ++ " " ++ s) l =
      t.tokenize p l ++ t.tokenize s l := by
    simpa [tokenize] using Profile.tokenize_space hstyle hp hs
  have hmeets :
      t.tokenize (p ++ "/*" ++ c ++ "*/" ++ s) l =
        t.tokenize (p ++ " " ++ s) l ↔
      ¬ Piece.Meets p.toList s.toList := by
    rw [hcut, hspace, ← Profile.map_classify_lex_append_iff (t.profile l)]
    simp only [tokenize, String.toList_append,
      Profile.tokenize_of_unmarked hstyle hp,
      Profile.tokenize_of_unmarked hstyle hs,
      Profile.tokenize_of_unmarked hstyle (hp.append hs)]
  refine ⟨hcut, hspace, hmeets,
    fun hapart id settings refusals before after => ?_⟩
  apply Analysis.ofSources_congr
  simp only [Source.tokenized, hmeets.2 hapart]

/-- A letter does not go on with a number, whatever stood between the two. -/
theorem Tokenizer.tokenize_block_between_number :
    (Tokenizer.default.profile .java).comments = .cStyle ∧
      Unmarked "x = 2".toList ∧ Unmarked "y;".toList ∧
        ¬ ['*', '/'] <:+: " \"so /* *".toList ∧
      ¬ Piece.Meets "x = 2".toList "y;".toList ∧
      Tokenizer.default.tokenize
        ("x = 2" ++ "/*" ++ " \"so /* *" ++ "*/" ++ "y;") .java =
        Tokenizer.default.tokenize ("x = 2" ++ " " ++ "y;") .java := by
  have hp : Unmarked "x = 2".toList := by decide +kernel
  have hs : Unmarked "y;".toList := by decide +kernel
  have hc : ¬ ['*', '/'] <:+: " \"so /* *".toList := by decide +kernel
  have hapart : ¬ Piece.Meets "x = 2".toList "y;".toList := by decide +kernel
  obtain ⟨-, -, hmeets, -⟩ :=
    tokenize_block_between (t := .default) (l := .java) rfl hp hs hc
  exact ⟨rfl, hp, hs, hc, hapart, hmeets.2 hapart⟩

/-- The two words around a block become one. -/
theorem Tokenizer.block_joins_words :
    (Tokenizer.default.profile .c).comments = .cStyle ∧
      Unmarked "int".toList ∧ Unmarked "w;".toList ∧
        ¬ ['*', '/'] <:+: " width ".toList ∧
      (Tokenizer.default.tokenize
          ("int" ++ "/*" ++ " width " ++ "*/" ++ "w;") .c).map (·.text) =
        ["intw", ";"] ∧
      (Tokenizer.default.tokenize ("int" ++ " " ++ "w;") .c).map (·.text) =
        ["int", "w", ";"] ∧
      Tokenizer.default.tokenize
        ("int" ++ "/*" ++ " width " ++ "*/" ++ "w;") .c ≠
        Tokenizer.default.tokenize ("int" ++ " " ++ "w;") .c := by
  refine ⟨rfl, ?_⟩
  decide +kernel

end Resemblance
