import Mathlib
import Resemblance.Settings.Reader

/-!
# Overrides of profiles

Settings hold the entries of a map from languages to overrides, so no language
has two of them and their order means nothing.  An override replaces parts of
one profile and touches no other, so each language ends up with its default
profile under its own override, whatever the order in which the entries are met.
-/

namespace Resemblance

namespace Tokenizer

/-- The reserved words are replaced first, then the comments of the profile that
stands by then. -/
def override (t : Tokenizer) (l : Language) (o : ProfileOverride) : Tokenizer :=
  let reserving := match o.keywords with
    | some ws => t.withKeywords l (.ofList ws)
    | none => t
  match o.comments with
  | some style =>
    reserving.withProfile l { reserving.profile l with comments := style }
  | none => reserving

def overrideEach
    (t : Tokenizer) (es : List (Language × ProfileOverride)) : Tokenizer :=
  es.foldl (fun t e => t.override e.1 e.2) t

section OneLanguage

variable {t : Tokenizer} {l m : Language}

theorem ext_profile
    {u : Tokenizer}
    (h : ∀ l, t.profile l = u.profile l) :
    t = u := by
  cases t
  cases u
  congr
  funext l
  exact h l

@[simp] theorem profile_withProfile_self
    (t : Tokenizer)
    (l : Language)
    (p : Profile) :
    (t.withProfile l p).profile l = p := by
  simp [withProfile]

@[simp] theorem profile_withKeywords_self
    (t : Tokenizer)
    (l : Language)
    (k : KeywordSet) :
    (t.withKeywords l k).profile l = { t.profile l with keywords := k } := by
  simp [withKeywords]

theorem profile_withProfile_of_ne
    (hne : m ≠ l)
    (p : Profile) :
    (t.withProfile l p).profile m = t.profile m := by
  simp [withProfile, hne]

theorem profile_withKeywords_of_ne
    (hne : m ≠ l)
    (k : KeywordSet) :
    (t.withKeywords l k).profile m = t.profile m := by
  simp [withKeywords, profile_withProfile_of_ne hne]

/-- The comments are set in a copy of the profile that has the new words
already. -/
theorem profile_override_self
    (t : Tokenizer)
    (l : Language)
    (o : ProfileOverride) :
    (t.override l o).profile l = o.apply (t.profile l) := by
  cases hwords : o.keywords <;> cases hcomments : o.comments <;>
    simp [override, ProfileOverride.apply, hwords, hcomments]

theorem profile_override_of_ne
    (hne : m ≠ l)
    (o : ProfileOverride) :
    (t.override l o).profile m = t.profile m := by
  cases hwords : o.keywords <;> cases hcomments : o.comments <;>
    simp [override, hwords, hcomments, profile_withProfile_of_ne hne,
      profile_withKeywords_of_ne hne]

theorem override_eq_withProfile
    (t : Tokenizer)
    (l : Language)
    (o : ProfileOverride) :
    t.override l o = t.withProfile l (o.apply (t.profile l)) := by
  apply ext_profile
  intro m
  by_cases hm : m = l
  · subst hm
    rw [profile_override_self, profile_withProfile_self]
  · rw [profile_override_of_ne hm, profile_withProfile_of_ne hm]

theorem override_comm
    (hne : l ≠ m)
    (o q : ProfileOverride) :
    (t.override l o).override m q = (t.override m q).override l o := by
  apply ext_profile
  intro k
  by_cases hl : k = l
  · subst hl
    rw [profile_override_of_ne hne, profile_override_self,
      profile_override_self, profile_override_of_ne hne]
  by_cases hm : k = m
  · subst hm
    rw [profile_override_self, profile_override_of_ne hl,
      profile_override_of_ne hl, profile_override_self]
  · simp only [profile_override_of_ne hl, profile_override_of_ne hm]

end OneLanguage

section Entries

variable {t : Tokenizer} {l : Language} {o : ProfileOverride}
  {es fs : List (Language × ProfileOverride)}

theorem overrideEach_perm
    (hone : (es.map Prod.fst).Nodup)
    (hperm : es.Perm fs) :
    t.overrideEach es = t.overrideEach fs := by
  apply hperm.foldl_eq'
  intro d hd e he u
  by_cases hkey : d.1 = e.1
  · rw [List.inj_on_of_nodup_map hone hd he hkey]
  · exact override_comm hkey d.2 e.2

theorem profile_overrideEach_of_absent (habsent : ∀ o, (l, o) ∉ es) :
    (t.overrideEach es).profile l = t.profile l := by
  induction es generalizing t with
  | nil => rfl
  | cons e es ih =>
      have hother : l ≠ e.1 := by
        rintro rfl
        exact habsent e.2 List.mem_cons_self
      have hrest : ∀ o, (l, o) ∉ es :=
        fun o ho => habsent o (List.mem_cons_of_mem e ho)
      have hstep := ih (t := t.override e.1 e.2) hrest
      rwa [profile_override_of_ne hother] at hstep

theorem profile_overrideEach_of_mem
    (hone : (es.map Prod.fst).Nodup)
    (hmem : (l, o) ∈ es) :
    (t.overrideEach es).profile l = o.apply (t.profile l) := by
  obtain ⟨before, after, rfl⟩ := List.append_of_mem hmem
  -- The entry of the language may as well be met first.
  rw [overrideEach_perm hone List.perm_middle]
  have habsent : ∀ q, (l, q) ∉ before ++ after := by
    intro q hq
    rw [(List.perm_middle.map Prod.fst).nodup_iff, List.map_cons,
      List.nodup_cons] at hone
    exact hone.1 (List.mem_map.2 ⟨(l, q), hq, rfl⟩)
  have hrest := profile_overrideEach_of_absent (t := t.override l o) habsent
  rwa [profile_override_self] at hrest

end Entries

end Tokenizer

section Reading

variable {δ : Type} [Document δ] {d : δ} {e : Language × ProfileOverride}
  {es : List (Language × ProfileOverride)}

theorem fst_of_mem_setOverride
    {f : Language × ProfileOverride}
    (hf : f ∈ setOverride e es) :
    f.1 = e.1 ∨ f.1 ∈ es.map Prod.fst := by
  induction es with
  | nil =>
      simp only [setOverride, List.mem_singleton] at hf
      simp [hf]
  | cons other es ih =>
      unfold setOverride at hf
      split at hf
      · rcases List.mem_cons.1 hf with rfl | hf
        · simp
        · exact .inr (List.mem_map_of_mem (List.mem_cons_of_mem other hf))
      · rcases List.mem_cons.1 hf with rfl | hf
        · simp
        · exact (ih hf).imp_right (List.mem_cons_of_mem other.1)

theorem nodup_setOverride (hone : (es.map Prod.fst).Nodup) :
    ((setOverride e es).map Prod.fst).Nodup := by
  induction es with
  | nil => simp [setOverride]
  | cons other es ih =>
      rw [List.map_cons, List.nodup_cons] at hone
      unfold setOverride
      split
      next hsame =>
        rw [List.map_cons, List.nodup_cons, ← hsame]
        exact hone
      next hother =>
        rw [List.map_cons, List.nodup_cons]
        refine ⟨fun hmem => ?_, ih hone.2⟩
        obtain ⟨f, hf, hkey⟩ := List.mem_map.1 hmem
        rcases fst_of_mem_setOverride hf with hnew | hold
        · exact hother (hkey.symm.trans hnew)
        · exact hone.1 (hkey ▸ hold)

theorem nodup_foldl_setOverride
    (read : List (Language × ProfileOverride))
    (hone : (es.map Prod.fst).Nodup) :
    ((read.foldl
      (fun all entry => setOverride entry all) es).map Prod.fst).Nodup := by
  induction read generalizing es with
  | nil => exact hone
  | cons entry read ih => exact ih (nodup_setOverride hone)

theorem nodup_overridesOfDocument? (hread : overridesOfDocument? d = some es) :
    (es.map Prod.fst).Nodup := by
  simp only [overridesOfDocument?, Option.bind_eq_bind, Option.bind_eq_some_iff,
    Option.some.injEq] at hread
  obtain ⟨_, _, read, _, rfl⟩ := hread
  exact nodup_foldl_setOverride read List.nodup_nil

end Reading

namespace Settings

/-- No language is overridden twice. -/
def OneForEach (s : Settings) : Prop := (s.overrides.map Prod.fst).Nodup

instance (s : Settings) : Decidable s.OneForEach :=
  inferInstanceAs (Decidable (s.overrides.map Prod.fst).Nodup)

/-- The same settings with other overrides, or with the same in another
order. -/
def withOverrides
    (s : Settings) (es : List (Language × ProfileOverride)) : Settings :=
  { s with overrides := es }

variable {s u : Settings} {l : Language}
  {es : List (Language × ProfileOverride)}

theorem oneForEach_of_ofDocument?
    {δ : Type} [Document δ] {d : δ}
    (hread : Settings.ofDocument? d = some s) :
    s.OneForEach := by
  simp only [Settings.ofDocument?, Option.bind_eq_bind,
    Option.bind_eq_some_iff] at hread
  obtain ⟨fields, _, hread⟩ := hread
  split at hread
  next _ _ _ _ _ overrides _ =>
    simp only [Option.bind_eq_some_iff, Option.some.injEq] at hread
    obtain ⟨_, _, _, _, _, _, _, _, es, hes, rfl⟩ := hread
    cases overrides with
    | none =>
        obtain rfl := Option.some.inj hes
        exact List.nodup_nil
    | some d => exact nodup_overridesOfDocument? hes
  next => contradiction

theorem oneForEach_of_read
    {yaml : String}
    (hread : Settings.read yaml = .ok s) :
    s.OneForEach := by
  unfold read at hread
  split at hread
  next => contradiction
  next found hfound =>
    split at hread
    next => contradiction
    next =>
      obtain rfl := Except.ok.inj hread
      simp only [ofYaml?, Option.bind_eq_bind,
        Option.bind_eq_some_iff] at hfound
      obtain ⟨p, _, hfound⟩ := hfound
      split at hfound
      · contradiction
      · exact oneForEach_of_ofDocument? hfound

theorem tokenizer_eq_overrideEach (s : Settings) :
    s.tokenizer = Tokenizer.default.overrideEach s.overrides := by
  simp only [tokenizer, Tokenizer.overrideEach,
    Tokenizer.override_eq_withProfile]

theorem profile_tokenizer_of_mem
    {o : ProfileOverride}
    (hs : s.OneForEach)
    (hmem : (l, o) ∈ s.overrides) :
    s.tokenizer.profile l = o.apply l.profile := by
  rw [tokenizer_eq_overrideEach, Tokenizer.profile_overrideEach_of_mem hs hmem,
    Tokenizer.default]

theorem profile_tokenizer_of_absent (habsent : ∀ o, (l, o) ∉ s.overrides) :
    s.tokenizer.profile l = l.profile := by
  rw [tokenizer_eq_overrideEach,
    Tokenizer.profile_overrideEach_of_absent habsent, Tokenizer.default]

theorem profile_tokenizer_eq
    (hs : s.OneForEach)
    (hu : u.OneForEach)
    (hsame : ∀ o, (l, o) ∈ u.overrides ↔ (l, o) ∈ s.overrides) :
    u.tokenizer.profile l = s.tokenizer.profile l := by
  by_cases hentry : ∃ o, (l, o) ∈ s.overrides
  · obtain ⟨o, ho⟩ := hentry
    rw [profile_tokenizer_of_mem hs ho,
      profile_tokenizer_of_mem hu ((hsame o).2 ho)]
  · rw [not_exists] at hentry
    rw [profile_tokenizer_of_absent hentry,
      profile_tokenizer_of_absent fun o ho => hentry o ((hsame o).1 ho)]

/-- The order of the overrides is no matter to the tokenizer that settings make.
A language has its default profile, with the reserved words and the comments of
its own override in place of the default ones if there are any, and the
overrides of other languages change none of its tokens. What is read from a text
overrides no language twice. -/
theorem tokenizer_order_free (hs : s.OneForEach) :
    (∀ es, es.Perm s.overrides →
      (s.withOverrides es).tokenizer = s.tokenizer ∧
        Tokenizer.default.overrideEach es = s.tokenizer) ∧
      (∀ l o, (l, o) ∈ s.overrides →
        (s.tokenizer.profile l).keywords =
            (o.keywords.map KeywordSet.ofList).getD l.profile.keywords ∧
          (s.tokenizer.profile l).comments =
            o.comments.getD l.profile.comments) ∧
      (∀ l, (∀ o, (l, o) ∉ s.overrides) → s.tokenizer.profile l = l.profile) ∧
      (∀ u l, OneForEach u →
        (∀ o, (l, o) ∈ u.overrides ↔ (l, o) ∈ s.overrides) →
        ∀ text, u.tokenizer.tokenize text l = s.tokenizer.tokenize text l) ∧
      ∀ yaml u, Settings.read yaml = .ok u → u.OneForEach := by
  refine ⟨?_, ?_, fun _ => profile_tokenizer_of_absent, ?_,
    fun _ _ => oneForEach_of_read⟩
  · intro es hperm
    have heach : Tokenizer.default.overrideEach es = s.tokenizer := by
      rw [tokenizer_eq_overrideEach, Tokenizer.overrideEach_perm hs hperm.symm]
    exact ⟨(tokenizer_eq_overrideEach _).trans heach, heach⟩
  · intro l o hmem
    rw [profile_tokenizer_of_mem hs hmem]
    exact ⟨rfl, rfl⟩
  · intro u l hu hsame text
    unfold Tokenizer.tokenize
    rw [profile_tokenizer_eq hs hu hsame]

/-- New words for one language, new comments for another, and both for a
third. -/
def mixedOverrides : List (Language × ProfileOverride) :=
  [(.javascript, { keywords := some ["Function", " const "] }),
    (.unknown, { comments := some .hash }),
    (.python, { keywords := some [], comments := some .cStyle })]

theorem tokenizer_mixed_reversed :
    OneForEach { overrides := mixedOverrides } ∧
      (withOverrides {} mixedOverrides.reverse).tokenizer =
        tokenizer { overrides := mixedOverrides } ∧
      (tokenizer { overrides := mixedOverrides }).profile .python =
        ⟨.cStyle, .empty⟩ ∧
      (tokenizer { overrides := mixedOverrides }).profile .unknown =
        ⟨.hash, .general⟩ ∧
      (tokenizer { overrides := mixedOverrides }).profile .java =
        Language.profile .java := by
  have hone : OneForEach { overrides := mixedOverrides } := by decide
  obtain ⟨horder, hparts, habsent, _, _⟩ := tokenizer_order_free hone
  have hpython :=
    hparts .python { keywords := some [], comments := some .cStyle } (by decide)
  have hunknown := hparts .unknown { comments := some .hash } (by decide)
  refine ⟨hone, (horder _ (List.reverse_perm _)).1, ?_, ?_, habsent .java ?_⟩
  · exact congrArg₂ Profile.mk hpython.2 hpython.1
  · exact congrArg₂ Profile.mk hunknown.2 hunknown.1
  · intro o
    simp [mixedOverrides]

end Settings

end Resemblance
