import Resemblance.Proofs.Measure.EditDistance
import Resemblance.Proofs.Tokenizer.Keywords

/-!
# Flattened tokens

No token is empty and none holds a blank, so the tokens can be read off the
line that joins them.  The line holds no quote and no number sign, and a slash
in it stands between spaces, so no pass finds a comment or a literal there.  If
only identifiers are reserved, a tokenizer without reserved words cuts the line
at its spaces and nowhere else.
-/

namespace Resemblance

open Text

section Joined

variable {ws : List (List Char)}

theorem Token.flatten_eq_intercalate
    {ts : List Token}
    (hts : ∀ k ∈ ts, k.text.toList ≠ []) :
    flatten ts = [' '].intercalate (ts.map (·.text.toList)) := by
  unfold flatten
  cases ts with
  | nil => rfl
  | cons k ts =>
      have hfirst : ¬ k.text.toList.isEmpty = true := by
        rw [List.isEmpty_iff]
        exact hts k List.mem_cons_self
      rw [List.map_cons, List.dropWhile_cons_of_neg hfirst]

theorem Pattern.replaceEach_of_fixed
    {ps : List Pattern} {s m : List Char}
    (hfixed : ∀ q ∈ ps, q.replace s m = m) :
    Pattern.replaceEach ps s m = m := by
  unfold Pattern.replaceEach
  induction ps with
  | nil => rfl
  | cons q ps ih =>
      rw [List.foldl_cons, hfixed q List.mem_cons_self]
      exact ih fun r hr => hfixed r (List.mem_cons_of_mem q hr)

theorem CommentStyle.strip_of_absent
    {style : CommentStyle} {m : List Char}
    (hblocks : ∀ o k, (o, k) ∈ style.blocks → Absent o m [])
    (hline : ∀ marker, style.lineMarker? = some marker → Absent marker m []) :
    style.strip m = m := by
  have hremoved : style.removeBlocks m = m := by
    apply Pattern.replaceEach_of_fixed
    intro q hq
    obtain ⟨⟨o, k⟩, hblock, rfl⟩ := List.mem_map.1 hq
    exact Pattern.replace_enclosed_of_absent [] (hblocks o k hblock)
  unfold strip removeLines
  rw [hremoved]
  split
  next marker hmarker =>
    exact Pattern.replace_toLineEnd_of_absent [] (hline marker hmarker)
  next => rfl

theorem Literal.mask_of_absent
    {m : List Char}
    (hdouble : '"' ∉ m)
    (hsingle : '\'' ∉ m) :
    mask m = m := by
  unfold mask maskWith quoted
  rw [Pattern.replace_enclosed_of_absent sentinel
    (Absent.of_head_not_mem hdouble),
    Pattern.replace_enclosed_of_absent sentinel
      (Absent.of_head_not_mem hsingle)]

theorem Text.collapse_intercalate
    (hws : ∀ w ∈ ws, w ≠ [] ∧ ∀ c ∈ w, isBlank c = false) :
    collapse ([' '].intercalate ws) = [' '].intercalate ws := by
  have hwords : words ([' '].intercalate ws) = ws := by
    apply Pattern.findAll_intercalate (fun _ => rfl)
    intro w hw
    refine Pattern.whole_run (hws w hw).1 ?_ rfl
    intro c hc
    rw [(hws w hw).2 c hc]
    rfl
  rw [collapse, hwords]

end Joined

section Pieces

variable {ws : List (List Char)} (hws : ∀ w ∈ ws, Piece.IsPiece w)

include hws

theorem not_mem_of_pieces
    {z : Char}
    (hz : Piece.belongs z = false)
    (hspace : z ≠ ' ') :
    z ∉ [' '].intercalate ws := by
  intro hmem
  rcases mem_intercalate hmem with rfl | ⟨w, hw, hzw⟩
  · exact hspace rfl
  · rw [(hws w hw).belongs z hzw] at hz
    contradiction

theorem absent_slash_of_pieces
    {d : Char}
    (hd : d ≠ ' ') :
    Absent ['/', d] ([' '].intercalate ws) [] := by
  apply absent_intercalate
  · intro t
    apply Absent.singleton
    rw [List.cons_prefix_cons]
    rintro ⟨hslash, _⟩
    contradiction
  · intro w hw
    by_cases hslash : '/' ∈ w
    · -- A slash is a piece by itself, so the text ends or a space stands behind
      -- it.
      rw [(hws w hw).eq_slash hslash]
      constructor
      · apply Absent.singleton
        simp
      · intro t
        apply Absent.singleton
        simpa using hd
    · exact ⟨Absent.of_head_not_mem hslash,
        fun t => Absent.of_head_not_mem hslash⟩

theorem CommentStyle.strip_pieces (style : CommentStyle) :
    style.strip ([' '].intercalate ws) = [' '].intercalate ws := by
  have hdouble :=
    not_mem_of_pieces hws (z := '"') (by decide +kernel) (by decide)
  have hsingle :=
    not_mem_of_pieces hws (z := '\'') (by decide +kernel) (by decide)
  have hsign := not_mem_of_pieces hws (z := '#') (by decide +kernel) (by decide)
  apply strip_of_absent
  · intro o k hblock
    cases style with
    | hash =>
        simp only [blocks, List.mem_cons, List.not_mem_nil, Prod.mk.injEq,
          or_false] at hblock
        rcases hblock with ⟨rfl, _⟩ | ⟨rfl, _⟩
        · exact Absent.of_head_not_mem hdouble
        · exact Absent.of_head_not_mem hsingle
    | cStyle =>
        simp only [blocks, List.mem_cons, List.not_mem_nil, Prod.mk.injEq,
          or_false] at hblock
        obtain ⟨rfl, _⟩ := hblock
        exact absent_slash_of_pieces hws (by decide)
    | none => cases hblock
  · intro marker hmarker
    cases style with
    | hash =>
        obtain rfl := Option.some.inj hmarker
        exact Absent.of_head_not_mem hsign
    | cStyle =>
        obtain rfl := Option.some.inj hmarker
        exact absent_slash_of_pieces hws (by decide)
    | none => cases hmarker

theorem Profile.canonical_pieces (p : Profile) :
    p.canonical ([' '].intercalate ws) = [' '].intercalate ws := by
  have hdouble :=
    not_mem_of_pieces hws (z := '"') (by decide +kernel) (by decide)
  have hsingle :=
    not_mem_of_pieces hws (z := '\'') (by decide +kernel) (by decide)
  unfold canonical
  rw [CommentStyle.strip_pieces hws, Literal.mask_of_absent hdouble hsingle]
  apply collapse_intercalate
  intro w hw
  exact ⟨(hws w hw).ne_nil,
    fun c hc => Piece.not_blank_of_belongs ((hws w hw).belongs c hc)⟩

theorem Piece.lex_pieces : lex ([' '].intercalate ws) = ws.map ofText := by
  unfold lex
  rw [Pattern.findAll_intercalate (fun _ => rfl) fun w hw => (hws w hw).whole]

theorem Profile.tokenize_pieces
    {p : Profile}
    (hp : p.keywords = .empty) :
    p.tokenize ([' '].intercalate ws) = ws.map fun w =>
      .ordinary (String.ofList w) := by
  rw [tokenize_eq, canonical_pieces hws, Piece.lex_pieces hws, List.map_map]
  apply List.map_congr_left
  intro w _
  have hplain : p.keywords.contains (String.ofList w) = false := by
    rw [hp]
    rfl
  simp only [Function.comp_apply, classify, Piece.text_ofText, hplain,
    Bool.false_eq_true, if_false]

end Pieces

section Tokens

variable {p q : Profile} {t u : List Char}

theorem Profile.flatten_tokenize
    (p : Profile)
    (t : List Char) :
    Token.flatten (p.tokenize t) =
      [' '].intercalate ((p.tokenize t).map (·.text.toList)) :=
  Token.flatten_eq_intercalate fun _ hk => ne_nil_of_mem_tokenize hk

theorem Profile.not_blank_of_mem_tokenize
    {k : Token}
    (hk : k ∈ p.tokenize t) :
    ∀ c ∈ k.text.toList, isBlank c = false :=
  fun c hc => Piece.not_blank_of_belongs (belongs_of_mem_tokenize hk c hc)

theorem Profile.splitAt_flatten
    (p : Profile)
    (t : List Char) :
    (if Token.flatten (p.tokenize t) = [] then []
      else Text.splitAt ' ' (Token.flatten (p.tokenize t))) =
        (p.tokenize t).map (·.text.toList) := by
  rw [flatten_tokenize]
  by_cases hempty : p.tokenize t = []
  · rw [hempty]
    rfl
  · have htexts : (p.tokenize t).map (·.text.toList) ≠ [] := by
      rwa [ne_eq, List.map_eq_nil_iff]
    have hne : ∀ w ∈ (p.tokenize t).map (·.text.toList), w ≠ [] := by
      intro w hw
      obtain ⟨k, hk, rfl⟩ := List.mem_map.1 hw
      exact ne_nil_of_mem_tokenize hk
    have hspace : ∀ w ∈ (p.tokenize t).map (·.text.toList), ' ' ∉ w := by
      intro w hw hmem
      obtain ⟨k, hk, rfl⟩ := List.mem_map.1 hw
      exact absurd (not_blank_of_mem_tokenize hk ' ' hmem) (by decide)
    rw [if_neg (intercalate_ne_nil hne htexts),
      splitAt_intercalate hspace htexts]

theorem Token.map_text_injective :
    Function.Injective (List.map fun k : Token => k.text.toList) := by
  rw [List.map_injective_iff]
  rintro ⟨a⟩ ⟨b⟩ hab
  exact congrArg Token.mk (String.toList_injective hab)

theorem Profile.flatten_inj :
    Token.flatten (p.tokenize t) = Token.flatten (q.tokenize u) ↔
      p.tokenize t = q.tokenize u := by
  constructor
  · intro hflat
    apply Token.map_text_injective
    rw [← splitAt_flatten p t, hflat, splitAt_flatten q u]
  · intro htokens
    rw [htokens]

theorem Profile.tokenize_flatten
    (hkeywords : p.keywords.OnlyIdentifiers)
    (hq : q.keywords = .empty)
    (t : List Char) :
    q.tokenize (Token.flatten (p.tokenize t)) =
      (p.tokenize t).map fun k => ⟨Text.lowercased k.text⟩ := by
  have hpieces : ∀ w ∈ (p.tokenize t).map (·.text.toList), Piece.IsPiece w := by
    intro w hw
    obtain ⟨k, hk, rfl⟩ := List.mem_map.1 hw
    exact isPiece_of_mem_tokenize hkeywords hk
  rw [flatten_tokenize, tokenize_pieces hpieces hq, List.map_map]
  apply List.map_congr_left
  intro k _
  rw [Function.comp_apply, String.ofList_toList, Token.ordinary]

end Tokens

/-- The flattened tokens of a text tell the tokens, their distance tells equal
tokens from others, and another tokenizer finds the same tokens in them in lower
case. -/
theorem Tokenizer.flatten_faithful
    (t : Tokenizer)
    (l : Language)
    (x : String) :
    (∀ k ∈ t.tokenize x l, k.text ≠ "" ∧
      ∀ c ∈ k.text.toList, Text.isBlank c = false) ∧
      (if Token.flatten (t.tokenize x l) = [] then []
        else Text.splitAt ' ' (Token.flatten (t.tokenize x l))) =
          (t.tokenize x l).map (·.text.toList) ∧
      (∀ (u : Tokenizer) (m : Language) (y : String),
        (Token.flatten (t.tokenize x l) = Token.flatten (u.tokenize y m) ↔
            t.tokenize x l = u.tokenize y m) ∧
          (editDistance (Token.flatten (t.tokenize x l))
            (Token.flatten (u.tokenize y m)) = 0 ↔
            t.tokenize x l = u.tokenize y m)) ∧
      ((t.profile l).keywords.OnlyIdentifiers →
        ∀ (v : Tokenizer) (m : Language), (v.profile m).keywords = .empty →
          v.tokenize (String.ofList (Token.flatten (t.tokenize x l))) m =
            (t.tokenize x l).map fun k => ⟨Text.lowercased k.text⟩) := by
  refine ⟨?_, Profile.splitAt_flatten _ _, ?_, ?_⟩
  · intro k hk
    refine ⟨?_, Profile.not_blank_of_mem_tokenize hk⟩
    intro hempty
    apply Profile.ne_nil_of_mem_tokenize hk
    rw [hempty]
    rfl
  · intro u m y
    rw [editDistance_eq_zero_iff]
    exact ⟨Profile.flatten_inj, Profile.flatten_inj⟩
  · intro hkeywords v m hv
    unfold tokenize
    rw [String.toList_ofList]
    exact Profile.tokenize_flatten hkeywords hv _

/-- Python's floor division, read again by a tokenizer that takes two slashes
for a comment. -/
theorem Tokenizer.flatten_floor_division :
    (Tokenizer.default.profile .python).keywords.OnlyIdentifiers ∧
      ((Tokenizer.default.withKeywords .cpp .empty).profile .cpp).keywords =
        .empty ∧
      Token.flatten
        (Tokenizer.default.tokenize "if Sum//2x > f\"a b\": # c" .python) =
        "KEYWORD_IF sum / / 2 x > fstring_literal :".toList ∧
      (Tokenizer.default.withKeywords .cpp .empty).tokenize
          (String.ofList
            (Token.flatten
              (Tokenizer.default.tokenize
                "if Sum//2x > f\"a b\": # c" .python))) .cpp =
        (Tokenizer.default.tokenize "if Sum//2x > f\"a b\": # c" .python).map
          fun k => ⟨Text.lowercased k.text⟩ := by
  have hkeywords :
      (Tokenizer.default.profile .python).keywords.OnlyIdentifiers :=
    KeywordSet.onlyIdentifiers_general
  have hempty :
      ((Tokenizer.default.withKeywords .cpp .empty).profile .cpp).keywords =
        .empty := rfl
  obtain ⟨_, _, _, hagain⟩ :=
    Tokenizer.flatten_faithful .default .python "if Sum//2x > f\"a b\": # c"
  exact ⟨hkeywords, hempty, by decide +kernel, hagain hkeywords _ .cpp hempty⟩

end Resemblance
