import Resemblance.Proofs.Text.Joining
import Resemblance.Proofs.Tokenizer.LiteralContents

/-!
# Quotes are paired from the left

The quotes of a text divide it into parts.  Masking pairs the first quote with
the second, the third with the fourth and so on, and writes the sentinel for
every second part; a last quote without a partner stays, with the text behind
it.  The sentinel holds no quote, so a masked text has at most one quote of
either kind left and is masked already.
-/

namespace Resemblance.Literal

open Text

/-- The parts joined by their quotes, with the sentinel for each pair and what
it encloses. -/
def pairParts (quote : Char) : List (List Char) → List Char
  | [] => []
  | [part] => part
  | [before, behind] => before ++ quote :: behind
  | before :: _ :: behind :: parts =>
    before ++ (sentinel ++ pairParts quote (behind :: parts))

def maskPairs (quote : Char) (t : List Char) : List Char :=
  pairParts quote (splitAt quote t)

section Pairs

variable {quote : Char} {parts : List (List Char)}

theorem maskWith_append_of_not_mem
    {p : List Char}
    (hp : quote ∉ p)
    (t : List Char) :
    maskWith quote (p ++ t) = p ++ maskWith quote t := by
  induction p with
  | nil => simp
  | cons c p ih =>
      rw [List.mem_cons, not_or] at hp
      rw [List.cons_append, maskWith_cons (Ne.symm hp.1), ih hp.2,
        List.cons_append]

theorem maskWith_of_not_mem
    {t : List Char}
    (ht : quote ∉ t) :
    maskWith quote t = t := by
  simpa [maskWith] using maskWith_append_of_not_mem ht []

/-- A quote without a partner masks nothing. -/
theorem maskWith_unpaired
    {t : List Char}
    (ht : quote ∉ t) :
    maskWith quote (quote :: t) = quote :: t := by
  apply Pattern.replace_enclosed_of_no_block
  intro p m r h
  have hcloser : [quote] <:+: t := (onlyAtEnd_nil [quote]).closer_behind h
  exact ht (hcloser.subset (by simp))

theorem maskWith_intercalate (hparts : ∀ part ∈ parts, quote ∉ part) :
    maskWith quote ([quote].intercalate parts) = pairParts quote parts := by
  fun_induction pairParts quote parts with
  | case1 => rfl
  | case2 part =>
      rw [List.intercalate_singleton, maskWith_of_not_mem (by simp_all)]
  | case3 before behind =>
      have hjoined : [quote].intercalate [before, behind] =
          before ++ quote :: behind := by simp
      rw [hjoined, maskWith_append_of_not_mem (by simp_all),
        maskWith_unpaired (by simp_all)]
  | case4 before inside behind parts ih =>
      have hjoined : [quote].intercalate (before :: inside :: behind :: parts) =
          before ++ quote ::
            (inside ++ quote :: [quote].intercalate (behind :: parts)) := by
        simp
      rw [hjoined, maskWith_append_of_not_mem (by simp_all),
        maskWith_literal (by simp_all), ih (by simp_all)]

theorem maskWith_eq_maskPairs
    (quote : Char)
    (t : List Char) :
    maskWith quote t = maskPairs quote t := by
  have hparts : maskWith quote ([quote].intercalate (splitAt quote t)) =
      maskPairs quote t :=
    maskWith_intercalate fun _ => not_mem_of_mem_splitAt
  rwa [intercalate_splitAt] at hparts

end Pairs

section Remaining

variable {quote : Char} {parts : List (List Char)}

theorem count_pairParts_le_one
    (hsentinel : quote ∉ sentinel)
    (hparts : ∀ part ∈ parts, quote ∉ part) :
    (pairParts quote parts).count quote ≤ 1 := by
  fun_induction pairParts quote parts with
  | case1 => simp
  | case2 part => simp_all [List.count_eq_zero_of_not_mem]
  | case3 before behind => simp_all [List.count_eq_zero_of_not_mem]
  | case4 before inside behind parts ih =>
      simp_all [List.count_eq_zero_of_not_mem]

/-- The sentinel brings in no character that it does not hold. -/
theorem count_pairParts_le
    {c : Char}
    (hsentinel : c ∉ sentinel) :
    (pairParts quote parts).count c ≤ ([quote].intercalate parts).count c := by
  fun_induction pairParts quote parts with
  | case1 => simp
  | case2 part => simp
  | case3 before behind => simp
  | case4 before inside behind parts ih =>
      have hnone := List.count_eq_zero_of_not_mem hsentinel
      rw [List.intercalate_cons_cons, List.intercalate_cons_cons]
      simp only [List.count_append]
      omega

theorem count_maskWith_le_one
    (hsentinel : quote ∉ sentinel)
    (t : List Char) :
    (maskWith quote t).count quote ≤ 1 := by
  rw [maskWith_eq_maskPairs]
  exact count_pairParts_le_one hsentinel fun _ => not_mem_of_mem_splitAt

theorem count_maskWith_le
    {c : Char}
    (hsentinel : c ∉ sentinel)
    (t : List Char) :
    (maskWith quote t).count c ≤ t.count c := by
  have hcount : (maskPairs quote t).count c ≤
      ([quote].intercalate (splitAt quote t)).count c :=
    count_pairParts_le hsentinel
  rwa [intercalate_splitAt, ← maskWith_eq_maskPairs] at hcount

theorem maskWith_of_count_le_one
    {t : List Char}
    (hcount : t.count quote ≤ 1) :
    maskWith quote t = t := by
  by_cases hmem : quote ∈ t
  · rcases List.eq_append_cons_of_mem hmem with ⟨before, behind, rfl, hbefore⟩
    have hbehind : quote ∉ behind := by
      rw [← List.count_eq_zero]
      simp at hcount
      omega
    rw [maskWith_append_of_not_mem hbefore, maskWith_unpaired hbehind]
  · exact maskWith_of_not_mem hmem

end Remaining

theorem count_double_mask_le_one (t : List Char) : (mask t).count '"' ≤ 1 :=
  Nat.le_trans (count_maskWith_le (c := '"') (by decide) _)
    (count_maskWith_le_one (by decide) t)

theorem count_single_mask_le_one (t : List Char) : (mask t).count '\'' ≤ 1 :=
  count_maskWith_le_one (by decide) _

theorem mask_of_count_le_one
    {t : List Char}
    (hdouble : t.count '"' ≤ 1)
    (hsingle : t.count '\'' ≤ 1) :
    mask t = t := by
  rw [mask, maskWith_of_count_le_one hdouble, maskWith_of_count_le_one hsingle]

theorem mask_pairs_quotes (t : List Char) :
    mask t = maskPairs '\'' (maskPairs '"' t) ∧ (mask t).count '"' ≤ 1 ∧
      (mask t).count '\'' ≤ 1 ∧ mask (mask t) = mask t := by
  have hdouble := count_double_mask_le_one t
  have hsingle := count_single_mask_le_one t
  refine ⟨?_, hdouble, hsingle, mask_of_count_le_one hdouble hsingle⟩
  rw [mask, maskWith_eq_maskPairs, maskWith_eq_maskPairs]

-- The last double quote has no partner and is masked with the single quotes
-- around it.
example : mask "\"it's\" '\"' d'".toList =
    "STRING_LITERAL STRING_LITERAL d'".toList := by decide

end Resemblance.Literal
