import Resemblance.Proofs.Text.Enclosed
import Resemblance.Proofs.Tokenizer.LineComment

/-!
# What a string literal holds

The contents of a literal in double quotes reach no token.  The passes for
comments treat two literals with harmless contents alike: both stay whole or
both are removed whole.  If they stay, an even number of quotes before them
makes the next pass pair exactly their two quotes, and both become the sentinel.
-/

namespace Resemblance

open Text

namespace Literal

/-- Contents that neither end a literal nor start, end or cut a comment. -/
structure Harmless (c : List Char) : Prop where
  ne_nil : c ≠ []
  noQuote : '"' ∉ c
  noLine : '\n' ∉ c
  noHash : '#' ∉ c
  noSlash : '/' ∉ c
  noTriple : ¬ ['\'', '\'', '\''] <:+: c

def inQuotes (c : List Char) : List Char := '"' :: (c ++ ['"'])

theorem absent_inQuotes
    {w c t : List Char} {z : Char}
    (hquote : '"' ∉ z :: w)
    (hnowhere : ¬ z :: w <:+: c) :
    Absent (z :: w) (inQuotes c) t := by
  have hends : ∀ t', Absent (z :: w) ['"'] t' := Absent.of_not_mem hquote
  have htext : Absent (z :: w) c (['"'] ++ t) :=
    (Apart.of_head hquote c).absent hnowhere
  exact (hends _).append (htext.append (hends t))

theorem insulated_inQuotes
    {w c : List Char} {z : Char}
    (hquote : '"' ∉ z :: w)
    (hnowhere : ¬ z :: w <:+: c)
    (p t : List Char) :
    Insulated (z :: w) p (inQuotes c) t :=
  Insulated.of_head hquote (absent_inQuotes hquote hnowhere) p

theorem insulated_inQuotes_of_quotes
    {p c t : List Char}
    (hc : Harmless c)
    (hp : p.getLast? ≠ some '"')
    (ht : t.head? ≠ some '"') :
    Insulated ['"', '"', '"'] p (inQuotes c) t where
  before := by
    apply Apart.of_getLast?
    intro z hz
    have hne : z ≠ '"' := fun heq => hp (heq ▸ hz)
    simp [hne]
  within := by
    obtain ⟨d, c', rfl⟩ := List.exists_cons_of_ne_nil hc.ne_nil
    have hfirst : Absent ['"', '"', '"'] ['"'] (d :: c' ++ ['"'] ++ t) := by
      have hd : '"' ≠ d := fun heq => hc.noQuote (heq ▸ List.mem_cons_self)
      apply Absent.singleton
      simp [hd]
    have htext : Absent ['"', '"', '"'] (d :: c') (['"'] ++ t) :=
      Absent.of_head_not_mem hc.noQuote
    have hlast : Absent ['"', '"', '"'] ['"'] t := by
      apply Absent.singleton
      cases t with
      | nil => simp
      | cons e t =>
          have he : '"' ≠ e := fun heq => ht (heq ▸ rfl)
          simp [he]
    exact hfirst.append (htext.append hlast)

theorem not_infix_of_not_mem
    {z : Char} {w c : List Char}
    (hz : z ∈ w)
    (hc : z ∉ c) :
    ¬ w <:+: c := fun hw => hc (hw.subset hz)

theorem line_not_mem_inQuotes
    {c : List Char}
    (hline : '\n' ∉ c) :
    '\n' ∉ inQuotes c := by
  simpa [inQuotes] using hline

end Literal

namespace CommentStyle

open Literal

theorem strip_treatsAlike
    (style : CommentStyle)
    {p t c d : List Char}
    (hc : Harmless c)
    (hd : Harmless d)
    (hp : p.getLast? ≠ some '"')
    (ht : t.head? ≠ some '"') :
    TreatsAlike style.strip p t (inQuotes c) (inQuotes d) := by
  have hlineC := line_not_mem_inQuotes hc.noLine
  have hlineD := line_not_mem_inQuotes hd.noLine
  cases style with
  | hash =>
      have hblocks :
          TreatsAlike hash.removeBlocks p t (inQuotes c) (inQuotes d) :=
        hash_removeBlocks_treatsAlike (insulated_inQuotes_of_quotes hc hp ht)
          (insulated_inQuotes_of_quotes hd hp ht)
          (insulated_inQuotes (by decide) hc.noTriple)
          (insulated_inQuotes (by decide) hd.noTriple)
      refine hblocks.comp fun t' =>
        Pattern.toLineEnd_treatsAlike [] ?_ ?_ hlineC hlineD
      · exact insulated_inQuotes (by decide)
          (not_infix_of_not_mem List.mem_cons_self hc.noHash) _ t'
      · exact insulated_inQuotes (by decide)
          (not_infix_of_not_mem List.mem_cons_self hd.noHash) _ t'
  | cStyle =>
      have hinsulated : ∀ {z : Char} {w y : List Char}, '"' ∉ z :: w →
          '/' ∈ z :: w →
          '/' ∉ y → ∀ p t, Insulated (z :: w) p (inQuotes y) t :=
        fun hquote hslash hy =>
          insulated_inQuotes hquote (not_infix_of_not_mem hslash hy)
      have hblocks :
          TreatsAlike cStyle.removeBlocks p t (inQuotes c) (inQuotes d) :=
        cStyle_removeBlocks_treatsAlike
          (hinsulated (by decide) (by decide) hc.noSlash p t)
          (hinsulated (by decide) (by decide) hd.noSlash p t)
          (hinsulated (by decide) (by decide) hc.noSlash p t)
          (hinsulated (by decide) (by decide) hd.noSlash p t)
      exact hblocks.comp fun t' => Pattern.toLineEnd_treatsAlike []
        (hinsulated (by decide) (by decide) hc.noSlash _ t')
        (hinsulated (by decide) (by decide) hd.noSlash _ t') hlineC hlineD
  | none => exact Or.inl ⟨t, rfl, rfl⟩

end CommentStyle

namespace Literal

theorem maskWith_cons
    {quote c : Char}
    (hc : c ≠ quote)
    (t : List Char) :
    maskWith quote (c :: t) = c :: maskWith quote t := by
  apply Pattern.replace_cons_of_unmatched
  apply Pattern.matchLength_enclosed_of_no_opener
  simp [hc.symm]

/-- A quote is paired with the next one. -/
theorem maskWith_literal
    {quote : Char} {c : List Char}
    (hc : quote ∉ c)
    (t : List Char) :
    maskWith quote (quote :: (c ++ quote :: t)) =
      sentinel ++ maskWith quote t := by
  have hblock :=
    Pattern.replace_enclosed_block (k := [quote]) sentinel (by simp) (by simp)
      (onlyAtEnd_nil [quote]) (onlyAtEnd_of_head_not_mem hc) t
  simpa [maskWith, quoted] using hblock

/-- Behind an even number of quotes no literal is open. -/
theorem maskWith_append_of_even
    {quote : Char} {p : List Char}
    (heven : p.count quote % 2 = 0)
    (t : List Char) :
    maskWith quote (p ++ t) = maskWith quote p ++ maskWith quote t := by
  induction hn : p.length using Nat.strongRecOn generalizing p with
  | ind n ih =>
      cases p with
      | nil => rfl
      | cons c rest =>
          by_cases hc : c = quote
          · subst hc
            have hmem : c ∈ rest := by
              apply List.count_pos_iff.1
              rw [List.count_cons_self] at heven
              omega
            obtain ⟨inside, behind, rfl, hinside⟩ :=
              List.eq_append_cons_of_mem hmem
            have hcount : behind.count c % 2 = 0 := by
              rw [List.count_cons_self, List.count_append, List.count_cons_self,
                List.count_eq_zero_of_not_mem hinside] at heven
              omega
            have hlength : behind.length < n := by
              simp only [List.length_cons, List.length_append] at hn
              omega
            have hjoined : c :: (inside ++ c :: behind) ++ t =
                c :: (inside ++ c :: (behind ++ t)) := by simp
            rw [hjoined, maskWith_literal hinside, maskWith_literal hinside,
              ih behind.length hlength hcount rfl, List.append_assoc]
          · have hcount : rest.count quote % 2 = 0 := by
              rwa [List.count_cons_of_ne hc] at heven
            have hlength : rest.length < n := by
              simp only [List.length_cons] at hn
              omega
            rw [List.cons_append, maskWith_cons hc, maskWith_cons hc,
              ih rest.length hlength hcount rfl, List.cons_append]

theorem maskWith_append_inQuotes
    {p c t : List Char}
    (heven : p.count '"' % 2 = 0)
    (hc : '"' ∉ c) :
    maskWith '"' (p ++ (inQuotes c ++ t)) =
      maskWith '"' p ++ (sentinel ++ maskWith '"' t) := by
  have hliteral : inQuotes c ++ t = '"' :: (c ++ '"' :: t) := by
    simp [inQuotes]
  rw [maskWith_append_of_even heven, hliteral, maskWith_literal hc]

end Literal

open Literal in
theorem Profile.canonical_inQuotes
    (q : Profile)
    {p t c d : List Char}
    (hc : Harmless c)
    (hd : Harmless d)
    (hp : p.getLast? ≠ some '"')
    (ht : t.head? ≠ some '"')
    (heven : (q.comments.strip p).count '"' % 2 = 0) :
    q.canonical (p ++ (inQuotes c ++ t)) =
      q.canonical (p ++ (inQuotes d ++ t)) := by
  unfold canonical mask
  rcases q.comments.strip_treatsAlike hc hd hp ht with
    ⟨t', hkeepC, hkeepD⟩ | heq
  · rw [hkeepC, hkeepD, maskWith_append_inQuotes heven hc.noQuote,
      maskWith_append_inQuotes heven hd.noQuote]
  · rw [heq]

/-- Where a literal starts in double quotes, its contents do not show in the
tokens. -/
theorem Tokenizer.tokenize_eq_of_literal
    (t : Tokenizer)
    (l : Language)
    {before after c d : String}
    (hc : Literal.Harmless c.toList)
    (hd : Literal.Harmless d.toList)
    (hbefore : before.toList.getLast? ≠ some '"')
    (hafter : after.toList.head? ≠ some '"')
    (heven : ((t.profile l).comments.strip before.toList).count '"' % 2 = 0) :
    t.tokenize (before ++ "\"" ++ c ++ "\"" ++ after) l =
      t.tokenize (before ++ "\"" ++ d ++ "\"" ++ after) l := by
  have htext : ∀ u : String, (before ++ "\"" ++ u ++ "\"" ++ after).toList =
      before.toList ++ (Literal.inQuotes u.toList ++ after.toList) := by
    intro u
    simp [String.toList_append, Literal.inQuotes]
  unfold tokenize
  rw [Profile.tokenize_eq, Profile.tokenize_eq, htext, htext,
    Profile.canonical_inQuotes _ hc hd hbefore hafter heven]

/-- Behind a docstring, a comment and a literal, with single quotes inside and
around. -/
theorem Tokenizer.tokenize_quoted_apostrophes :
    Tokenizer.default.tokenize
        ("\"\"\"doc\"\"\" it's # \"\nf(\"a\", " ++ "\"" ++ "'' * " ++ "\"" ++
          ", 'b') # \"") .python =
      Tokenizer.default.tokenize
        ("\"\"\"doc\"\"\" it's # \"\nf(\"a\", " ++ "\"" ++ "x" ++ "\"" ++
          ", 'b') # \"") .python :=
  Tokenizer.tokenize_eq_of_literal .default .python
    ⟨by decide +kernel, by decide +kernel, by decide +kernel, by decide +kernel,
      by decide +kernel, by decide +kernel⟩
    ⟨by decide +kernel, by decide +kernel, by decide +kernel, by decide +kernel,
      by decide +kernel, by decide +kernel⟩
    (by decide +kernel) (by decide +kernel) (by decide +kernel)

end Resemblance
