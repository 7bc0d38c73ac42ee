import Resemblance.Proofs.Analysis.Accounting

/-!
# When an analysis fails

Three things can go wrong, and which of them is reported depends on nothing but
the settings and the number of inputs with tokens.  Settings are checked before
any path is looked at and what they let pass is never refused later; sources in
memory are counted before the settings are looked at.
-/

namespace Resemblance

/-- The check of all settings includes the check that a comparison makes
again. -/
theorem Settings.comparison_fault?_of_fault?
    {s : Settings}
    (hvalid : s.fault? = none) :
    s.comparison.fault? = none := by
  unfold fault? at hvalid
  split at hvalid
  next => contradiction
  next =>
    split at hvalid
    next => contradiction
    next hfault => exact hfault

namespace Analysis

section Sources

variable {t : Tokenizer} {s : ComparisonSettings} {refusals : List Exclusion}
  {sources : List Source}

theorem length_compared
    (t : Tokenizer)
    (sources : List Source) :
    (compared t sources).length = sources.countP (·.hasTokens t) := by
  rw [compared, List.length_map, List.countP_eq_length_filter]

theorem ofSources_eq_error_iff {failure : Comparison.Failure} :
    ofSources t s refusals sources = .error failure ↔
      Comparison.compareAll s (compared t sources) = .error failure := by
  rw [ofSources_eq]
  cases Comparison.compareAll s (compared t sources) <;> simp [Except.map]

theorem exists_ofSources_eq_ok_iff :
    (∃ a, ofSources t s refusals sources = .ok a) ↔
      ∃ results,
        Comparison.compareAll s (compared t sources) = .ok results := by
  rw [ofSources_eq]
  cases Comparison.compareAll s (compared t sources) <;> simp [Except.map]

end Sources

section Paths

variable {d : Disk} {s : Settings} {paths : List String}

theorem length_compared_loaded
    (d : Disk)
    (t : Tokenizer)
    (paths : List String) :
    (compared t (loaded d paths)).length = paths.countP (yields d t) := by
  rw [List.countP_eq_length_filter, ← ids_compared, List.length_map]

theorem ofPaths_of_fault
    {fault : Settings.Fault}
    (hfault : s.fault? = some fault) :
    ofPaths d s paths = .error (.settings fault) := by
  rw [ofPaths, hfault]

theorem ofPaths_eq_settings_iff {fault : Settings.Fault} :
    ofPaths d s paths = .error (.settings fault) ↔ s.fault? = some fault := by
  refine ⟨fun hrun => ?_, ofPaths_of_fault⟩
  cases hfault : s.fault? with
  | some found =>
      rw [ofPaths_of_fault hfault] at hrun
      cases hrun
      rfl
  | none =>
      rw [ofPaths_eq hfault] at hrun
      cases hcompared : Comparison.compareAll s.comparison
          (compared s.tokenizer (loaded d paths)) <;>
        rw [hcompared] at hrun <;> cases hrun

theorem ofPaths_eq_comparison_iff {failure : Comparison.Failure} :
    ofPaths d s paths = .error (.comparison failure) ↔
      s.fault? = none ∧
        Comparison.compareAll s.comparison
          (compared s.tokenizer (loaded d paths)) =
          .error failure := by
  cases hfault : s.fault? with
  | some found => simp [ofPaths_of_fault hfault]
  | none =>
      rw [ofPaths_eq hfault]
      cases Comparison.compareAll s.comparison
        (compared s.tokenizer (loaded d paths)) <;>
        simp [Except.map, Except.mapError]

theorem exists_ofPaths_eq_ok_iff :
    (∃ a, ofPaths d s paths = .ok a) ↔
      s.fault? = none ∧ 2 ≤ paths.countP (yields d s.tokenizer) := by
  rw [← length_compared_loaded]
  constructor
  · rintro ⟨a, hrun⟩
    obtain ⟨hvalid, results, hresults, _⟩ := ofPaths_eq_ok_iff.1 hrun
    exact ⟨hvalid, (Comparison.compareAll_eq_ok_iff.1 hresults).1⟩
  · rintro ⟨hvalid, hmany⟩
    obtain ⟨results, hresults⟩ := Comparison.exists_compareAll_eq_ok_iff.2
      ⟨hmany, Settings.comparison_fault?_of_fault? hvalid⟩
    exact ⟨_, ofPaths_eq_ok_iff.2 ⟨hvalid, results, hresults, rfl⟩⟩

end Paths

/-- The failures of an analysis, of paths and of sources in memory, with their
causes. -/
theorem failures_classified
    (d : Disk)
    (s : Settings)
    (paths : List String) :
    (∀ fault, ofPaths d s paths = .error (.settings fault) ↔
        s.fault? = some fault) ∧
      (∀ failure, ofPaths d s paths = .error (.comparison failure) ↔
        s.fault? = none ∧ paths.countP (yields d s.tokenizer) < 2 ∧
          failure = .tooFewFiles (paths.countP (yields d s.tokenizer))) ∧
      ((∃ a, ofPaths d s paths = .ok a) ↔
        s.fault? = none ∧ 2 ≤ paths.countP (yields d s.tokenizer)) ∧
      (s.fault? = none → s.comparison.fault? = none) ∧
      ∀ (t : Tokenizer) (c : ComparisonSettings) (refusals : List Exclusion)
          (sources : List Source),
        (∀ found, ofSources t c refusals sources = .error (.tooFewFiles found) ↔
          sources.countP (·.hasTokens t) < 2 ∧
            found = sources.countP (·.hasTokens t)) ∧
        (∀ fault,
          ofSources t c refusals sources = .error (.invalidSettings fault) ↔
            2 ≤ sources.countP (·.hasTokens t) ∧ c.fault? = some fault) ∧
        ((∃ a, ofSources t c refusals sources = .ok a) ↔
          2 ≤ sources.countP (·.hasTokens t) ∧ c.fault? = none) := by
  refine ⟨fun _ => ofPaths_eq_settings_iff, ?_, exists_ofPaths_eq_ok_iff,
    Settings.comparison_fault?_of_fault?, ?_⟩
  · intro failure
    rw [ofPaths_eq_comparison_iff, ← length_compared_loaded]
    apply and_congr_right
    intro hvalid
    cases failure with
    | tooFewFiles found =>
        rw [Comparison.compareAll_eq_tooFewFiles_iff,
          Comparison.Failure.tooFewFiles.injEq]
    | invalidSettings fault =>
        simp [Comparison.compareAll_eq_invalidSettings_iff,
          Settings.comparison_fault?_of_fault? hvalid]
  · intro t c refusals sources
    simp only [ofSources_eq_error_iff, exists_ofSources_eq_ok_iff,
      ← length_compared]
    exact ⟨fun _ => Comparison.compareAll_eq_tooFewFiles_iff,
      fun _ => Comparison.compareAll_eq_invalidSettings_iff,
      Comparison.exists_compareAll_eq_ok_iff⟩

end Analysis

end Resemblance
