import Resemblance.Proofs.Settings.Overrides

/-!
# Faults and the order of overrides

The version, the comparison and the report are checked before any override, and
a fault found there hides all overrides.  Otherwise the first language with a
word that is no identifier is reported.  Whether there is a fault never depends
on the order of the overrides, but of several such languages each is reported
in some order, with a message of its own.
-/

namespace Resemblance

open Text

theorem Language.name_injective : Function.Injective Language.name := by
  intro l m h
  have hsame : some l = some m := by
    rw [← named?_name l, h, named?_name]
  exact Option.some.inj hsame

namespace Settings

/-- The fault of the version, the comparison or the report. -/
def fixedFault? (s : Settings) : Option Fault := (s.withOverrides []).fault?

/-- The languages with a word that is no identifier, in the order of the
overrides. -/
def misspelled (s : Settings) : List Language :=
  (s.overrides.filter fun e => !hasIdentifiers e.2).map Prod.fst

variable {s : Settings} {l m : Language}
  {es : List (Language × ProfileOverride)}

theorem fault?_eq (s : Settings) :
    s.fault? = s.fixedFault?.or (s.misspelled.head?.map .keywords) := by
  have hfirst :
      (s.overrides.find? fun e => !hasIdentifiers e.2).map
        (fun e => Fault.keywords e.1) =
      s.misspelled.head?.map .keywords := by
    rw [misspelled, List.head?_map, List.head?_filter, Option.map_map]
    rfl
  by_cases hversion : s.version ≠ "1.0" ∧ s.version ≠ "1"
  · simp [fixedFault?, fault?, withOverrides, hversion]
  cases hcomparison : s.comparison.fault? with
  | some fault =>
      simp [fixedFault?, fault?, withOverrides, hversion, hcomparison]
  | none =>
      by_cases houtput : isBlankString s.report.output = true
      · simp [fixedFault?, fault?, withOverrides, hversion, hcomparison,
          houtput]
      · simp [fixedFault?, fault?, withOverrides, hversion, hcomparison,
          houtput, hfirst]

theorem fault?_withOverrides
    (s : Settings)
    (es : List (Language × ProfileOverride)) :
    (s.withOverrides es).fault? =
      s.fixedFault?.or ((s.withOverrides es).misspelled.head?.map .keywords) :=
  fault?_eq (s.withOverrides es)

theorem fault?_of_fixedFault?
    {fault : Fault}
    (hfixed : s.fixedFault? = some fault)
    (es : List (Language × ProfileOverride)) :
    (s.withOverrides es).fault? = some fault := by
  rw [fault?_withOverrides, hfixed, Option.some_or]

theorem misspelled_perm (hperm : es.Perm s.overrides) :
    (s.withOverrides es).misspelled.Perm s.misspelled :=
  (hperm.filter _).map Prod.fst

/-- Any language with a word that is no identifier may come first. -/
theorem exists_order_of_mem_misspelled (hl : l ∈ s.misspelled) :
    ∃ es, es.Perm s.overrides ∧
      (s.withOverrides es).misspelled.head? = some l := by
  obtain ⟨e, he, rfl⟩ := List.mem_map.1 hl
  obtain ⟨hmem, hwrong⟩ := List.mem_filter.1 he
  obtain ⟨before, after, hsplit⟩ := List.append_of_mem hmem
  refine ⟨e :: (before ++ after), ?_, ?_⟩
  · rw [hsplit]
    exact List.perm_middle.symm
  · simp [misspelled, withOverrides, hwrong]

theorem fault?_reordered (hperm : es.Perm s.overrides) :
    (s.withOverrides es).fault? = s.fault? ∨
      ∃ l ∈ s.misspelled, ∃ m ∈ s.misspelled, s.fault? = some (.keywords l) ∧
        (s.withOverrides es).fault? = some (.keywords m) := by
  have hmisspelled := misspelled_perm hperm
  rw [fault?_withOverrides, fault?_eq s]
  cases s.fixedFault? with
  | some fault => exact .inl rfl
  | none =>
      cases hhere : s.misspelled with
      | nil =>
          rw [hhere] at hmisspelled
          rw [hmisspelled.eq_nil]
          exact .inl rfl
      | cons l rest =>
          cases hthere : (s.withOverrides es).misspelled with
          | nil =>
              rw [hhere, hthere] at hmisspelled
              exact absurd hmisspelled.symm.eq_nil (List.cons_ne_nil l rest)
          | cons m others =>
              rw [hhere, hthere] at hmisspelled
              have hm : m ∈ l :: rest := hmisspelled.subset List.mem_cons_self
              refine .inr ⟨l, List.mem_cons_self, m, hm, ?_⟩
              simp

theorem message_keywords_injective
    (h : (Fault.keywords l).message = (Fault.keywords m).message) :
    l = m := by
  unfold Fault.message at h
  have htexts := congrArg String.toList h
  simp only [String.toList_append] at htexts
  have hname := List.append_cancel_left (List.append_cancel_right htexts)
  exact Language.name_injective (String.toList_injective hname)

/-- The check finds a fault in every order of the overrides or in none, and the
same one unless it lies in the words of a language.  Then every language with a
wrong word is named in some order, so the message depends on nothing but the
settings exactly if an earlier fault hides those languages or there are no two
of them. -/
theorem faults_over_orders (s : Settings) :
    (∀ es, es.Perm s.overrides →
      (s.withOverrides es).fault? = s.fault? ∨
        ∃ l ∈ s.misspelled, ∃ m ∈ s.misspelled, s.fault? = some (.keywords l) ∧
          (s.withOverrides es).fault? = some (.keywords m)) ∧
      (s.fixedFault? = none → ∀ l ∈ s.misspelled,
        ∃ es, es.Perm s.overrides ∧
          (s.withOverrides es).fault? = some (.keywords l)) ∧
      ((∀ es, es.Perm s.overrides →
          (s.withOverrides es).fault?.map Fault.message =
            s.fault?.map Fault.message) ↔
        s.fixedFault? ≠ none ∨
          ∀ l ∈ s.misspelled, ∀ m ∈ s.misspelled, l = m) := by
  have hreached : s.fixedFault? = none → ∀ l ∈ s.misspelled,
      ∃ es, es.Perm s.overrides ∧
        (s.withOverrides es).fault? = some (.keywords l) := by
    intro hfixed l hl
    obtain ⟨es, hperm, hfirst⟩ := exists_order_of_mem_misspelled hl
    refine ⟨es, hperm, ?_⟩
    simp [fault?_withOverrides, hfixed, hfirst]
  refine ⟨fun es hperm => fault?_reordered hperm, hreached, ?_, ?_⟩
  · intro hsame
    by_cases hfixed : s.fixedFault? = none
    · right
      intro l hl m hm
      obtain ⟨es, hes, hfault⟩ := hreached hfixed l hl
      obtain ⟨fs, hfs, hother⟩ := hreached hfixed m hm
      have hmessages := (hsame es hes).trans (hsame fs hfs).symm
      rw [hfault, hother] at hmessages
      exact message_keywords_injective (Option.some.inj hmessages)
    · exact .inl hfixed
  · rintro (hfixed | hone) es hperm
    · obtain ⟨fault, hfault⟩ := Option.ne_none_iff_exists'.1 hfixed
      rw [fault?_of_fixedFault? hfault es]
      exact congrArg _ (fault?_of_fixedFault? hfault s.overrides).symm
    · rcases fault?_reordered hperm with hsame | ⟨l, hl, m, hm, hhere, hthere⟩
      · rw [hsame]
      · rw [hhere, hthere, hone l hl m hm]

/-- Two languages with a wrong word each, and no other fault. -/
def twoMisspelled : Settings where
  overrides := [(.java, { keywords := some ["public", "not a word"] }),
    (.python, { keywords := some ["2nd"] })]

theorem message_depends_on_order :
    twoMisspelled.OneForEach ∧
    twoMisspelled.overrides.reverse.Perm twoMisspelled.overrides ∧
    twoMisspelled.fault?.map Fault.message =
      some "validation error: languages.java.keywords must be identifiers" ∧
    (twoMisspelled.withOverrides twoMisspelled.overrides.reverse).fault?.map
        Fault.message =
      some
        "validation error: languages.python.keywords must be identifiers" := by
  refine ⟨by decide, List.reverse_perm _, ?_, ?_⟩ <;> decide +kernel

end Settings

end Resemblance
