import Resemblance.Proofs.Tokenizer.PieceText

/-!
# Reserved words of accepted settings

Trimming leaves an identifier alone and lowering leaves it an identifier, so a
set made of identifiers holds nothing else.  Settings without a fault reserve
identifiers only, whatever language they override and however often.
-/

namespace Resemblance

open Text

theorem Text.trim_of_no_blank
    {t : List Char}
    (ht : ∀ c ∈ t, isBlank c = false) :
    trim t = t := by
  have hdrop : ∀ {u : List Char}, (∀ c ∈ u, isBlank c = false) →
      u.dropWhile isBlank = u := by
    intro u hu
    rw [List.dropWhile_eq_self_iff]
    intro hlength
    rw [Bool.not_eq_true]
    exact hu _ (List.getElem_mem hlength)
  have hreversed : ∀ c ∈ t.reverse, isBlank c = false := by
    intro c hc
    exact ht c (List.mem_reverse.1 hc)
  rw [trim, dropBlankEnd, hdrop ht, hdrop hreversed, List.reverse_reverse]

theorem Settings.isIdentifier_lowercased
    {v : String}
    (hv : isIdentifier v = true) :
    isIdentifier (Text.lowercased (Text.trimmed v)) = true := by
  have hbelongs : ∀ c ∈ v.toList, Piece.belongs c = true := by
    intro c hc
    exact Piece.belongs_of_isWordPart (Piece.isWordPart_of_isIdentifier hv c hc)
  have hsolid : ∀ c ∈ v.toList, isBlank c = false := by
    intro c hc
    exact Piece.not_blank_of_belongs (hbelongs c hc)
  rw [Text.trimmed, Text.trim_of_no_blank hsolid, Text.lowercased,
    String.toList_ofList, Piece.lowercase_of_belongs hbelongs]
  unfold isIdentifier at hv ⊢
  rw [String.toList_ofList]
  cases hchars : v.toList with
  | nil =>
      rw [hchars] at hv
      contradiction
  | cons c rest =>
      rw [hchars, Bool.and_eq_true, List.all_eq_true] at hv
      simp only [List.map_cons, Bool.and_eq_true, List.all_eq_true,
        List.mem_map, forall_exists_index, and_imp, forall_apply_eq_imp_iff₂,
        Piece.isWordStart_toLower, Piece.isWordPart_toLower]
      exact hv

theorem KeywordSet.onlyIdentifiers_ofList
    {ws : List String}
    (hws : ws.all Settings.isIdentifier = true) :
    (ofList ws).OnlyIdentifiers := by
  intro v hv
  rw [← StringSet.contains_iff, ofList, StringSet.contains_ofList,
    List.mem_filter, List.mem_map] at hv
  obtain ⟨⟨w, hw, rfl⟩, _⟩ := hv
  exact Settings.isIdentifier_lowercased (List.all_eq_true.1 hws w hw)

theorem KeywordSet.onlyIdentifiers_general : general.OnlyIdentifiers :=
  onlyIdentifiers_ofList (by decide +kernel)

theorem ProfileOverride.onlyIdentifiers_apply
    {o : ProfileOverride} {p : Profile}
    (ho : Settings.hasIdentifiers o = true)
    (hp : p.keywords.OnlyIdentifiers) :
    (o.apply p).keywords.OnlyIdentifiers := by
  unfold apply
  cases hwords : o.keywords with
  | none => exact hp
  | some ws =>
      rw [Settings.hasIdentifiers, hwords, Option.getD_some] at ho
      exact KeywordSet.onlyIdentifiers_ofList ho

theorem Settings.hasIdentifiers_of_fault?_eq_none
    {s : Settings}
    (hs : s.fault? = none) :
    ∀ e ∈ s.overrides, hasIdentifiers e.2 = true := by
  unfold fault? at hs
  split at hs
  next => contradiction
  next =>
    split at hs
    next => contradiction
    next =>
      split at hs
      next => contradiction
      next =>
        rw [Option.map_eq_none_iff, List.find?_eq_none] at hs
        intro e he
        have hnone := hs e he
        rwa [Bool.not_eq_true, Bool.not_eq_false'] at hnone

theorem Tokenizer.onlyIdentifiers_withProfile
    {t : Tokenizer} {p : Profile} {l : Language}
    (hp : p.keywords.OnlyIdentifiers)
    (ht : ∀ m, (t.profile m).keywords.OnlyIdentifiers)
    (m : Language) :
    ((t.withProfile l p).profile m).keywords.OnlyIdentifiers := by
  change (if m = l then p else t.profile m).keywords.OnlyIdentifiers
  by_cases hm : m = l
  · rw [if_pos hm]
    exact hp
  · rw [if_neg hm]
    exact ht m

/-- What settings let pass the check of their words makes a tokenizer with no
other words. -/
theorem Settings.onlyIdentifiers_tokenizer
    {s : Settings}
    (hs : s.fault? = none)
    (l : Language) :
    (s.tokenizer.profile l).keywords.OnlyIdentifiers := by
  have hoverrides := hasIdentifiers_of_fault?_eq_none hs
  have hdefault : ∀ m, (Tokenizer.default.profile m).keywords.OnlyIdentifiers :=
    fun _ => KeywordSet.onlyIdentifiers_general
  unfold tokenizer
  -- The fold keeps it for all languages at once, since the next override may be
  -- of any.
  generalize s.overrides = es at hoverrides
  generalize Tokenizer.default = t at hdefault
  induction es generalizing t with
  | nil => exact hdefault l
  | cons e es ih =>
      rw [List.foldl_cons]
      refine ih (fun d hd => hoverrides d (List.mem_cons_of_mem e hd)) _ ?_
      exact Tokenizer.onlyIdentifiers_withProfile
        (ProfileOverride.onlyIdentifiers_apply
          (hoverrides e List.mem_cons_self) (hdefault e.1))
        hdefault

end Resemblance
