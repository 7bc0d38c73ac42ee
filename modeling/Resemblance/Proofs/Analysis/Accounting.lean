import Resemblance.Analysis
import Resemblance.Proofs.Comparison.Outcome
import Resemblance.Proofs.Statistics.Aggregate

/-!
# Where every path goes

A path is refused, or it is loaded and yields no token, or it is compared.  The
files of an analysis are the paths of the last kind, and its exclusions are the
refused paths with the blank ones behind them, each kind in input order.  A path
that is not compared therefore adds one exclusion and changes nothing else.
-/

namespace Resemblance

def Source.hasTokens (t : Tokenizer) (s : Source) : Bool :=
  !(t.tokenize s.text s.language).isEmpty

namespace Analysis

section Sources

variable {t : Tokenizer} {s : ComparisonSettings} {refusals : List Exclusion}
  {sources : List Source}

/-- What is left of the sources for the comparison. -/
def compared (t : Tokenizer) (sources : List Source) : List TokenizedFile :=
  (sources.filter (·.hasTokens t)).map (·.tokenized t)

def blanks (t : Tokenizer) (sources : List Source) : List Exclusion :=
  (sources.filter fun source => !source.hasTokens t).map fun source =>
    ⟨source.id, noTokens⟩

def assemble
    (exclusions : List Exclusion) (files : List TokenizedFile)
    (results : List Comparison) : Analysis where
  files := files.map (·.summary)
  excluded := exclusions
  results := results
  statistics := Statistics.aggregate results

theorem ofSources_eq
    (t : Tokenizer)
    (s : ComparisonSettings)
    (refusals : List Exclusion)
    (sources : List Source) :
    ofSources t s refusals sources =
      (Comparison.compareAll s (compared t sources)).map
        (assemble (refusals ++ blanks t sources) (compared t sources)) := by
  have hcompared : (sources.map (·.tokenized t)).filter (!·.tokens.isEmpty) =
      compared t sources := List.filter_map
  have hblanks : ((sources.map (·.tokenized t)).filter (·.tokens.isEmpty)).map
      (fun f => (⟨f.id, noTokens⟩ : Exclusion)) = blanks t sources := by
    rw [List.filter_map, List.map_map, blanks]
    congr 2
    funext source
    exact (Bool.not_not _).symm
  unfold ofSources
  simp only [hcompared, hblanks]
  cases Comparison.compareAll s (compared t sources) <;> rfl

end Sources

section Loading

/-- The path is loaded, and the source is of the given kind. -/
def loadsAs (d : Disk) (kind : Source → Bool) (path : String) : Bool :=
  match Source.load d path with
  | .ok source => kind source
  | .error _ => false

def loads (d : Disk) : String → Bool := loadsAs d fun _ => true

/-- The path is loaded, and at least one token is found in its text. -/
def yields (d : Disk) (t : Tokenizer) : String → Bool :=
  loadsAs d (·.hasTokens t)

variable {d : Disk} {t : Tokenizer} {path : String} {source : Source}
  {refusal : Source.Refusal}

theorem id_of_load (hload : Source.load d path = .ok source) :
    source.id = path := by
  obtain ⟨-, content, text, -, -, -, rfl⟩ := Source.load_eq_ok_iff.1 hload
  rfl

theorem loadsAs_of_ok
    (hload : Source.load d path = .ok source)
    (kind : Source → Bool) :
    loadsAs d kind path = kind source := by
  rw [loadsAs, hload]

theorem loadsAs_of_error
    (hload : Source.load d path = .error refusal)
    (kind : Source → Bool) :
    loadsAs d kind path = false := by
  rw [loadsAs, hload]

theorem loaded_append (before after : List String) :
    loaded d (before ++ after) = loaded d before ++ loaded d after :=
  List.filterMap_append

theorem refused_append (before after : List String) :
    refused d (before ++ after) = refused d before ++ refused d after :=
  List.filterMap_append

theorem loaded_cons_of_ok
    (hload : Source.load d path = .ok source)
    (paths : List String) :
    loaded d (path :: paths) = source :: loaded d paths := by
  apply List.filterMap_cons_some
  rw [loadOrExclude, hload]
  rfl

theorem loaded_cons_of_error
    (hload : Source.load d path = .error refusal)
    (paths : List String) :
    loaded d (path :: paths) = loaded d paths := by
  apply List.filterMap_cons_none
  rw [loadOrExclude, hload]
  rfl

theorem refused_cons_of_ok
    (hload : Source.load d path = .ok source)
    (paths : List String) :
    refused d (path :: paths) = refused d paths := by
  apply List.filterMap_cons_none
  rw [loadOrExclude, hload]
  rfl

theorem refused_cons_of_error
    (hload : Source.load d path = .error refusal)
    (paths : List String) :
    refused d (path :: paths) =
      ⟨path, refusal.message path⟩ :: refused d paths := by
  apply List.filterMap_cons_some
  rw [loadOrExclude, hload]
  rfl

theorem ids_filter_loaded
    (d : Disk)
    (kind : Source → Bool)
    (paths : List String) :
    ((loaded d paths).filter kind).map (·.id) =
      paths.filter (loadsAs d kind) := by
  induction paths with
  | nil => rfl
  | cons path paths ih =>
      cases hload : Source.load d path with
      | error refusal =>
          have hkind := loadsAs_of_error hload kind
          rw [loaded_cons_of_error hload, ih,
            List.filter_cons_of_neg (Bool.eq_false_iff.1 hkind)]
      | ok source =>
          have hkind := loadsAs_of_ok hload kind
          have hid := id_of_load hload
          rw [loaded_cons_of_ok hload, List.filter_cons, List.filter_cons,
            hkind, ← ih]
          split
          next => rw [List.map_cons, hid]
          next => rfl

theorem ids_compared
    (d : Disk)
    (t : Tokenizer)
    (paths : List String) :
    (compared t (loaded d paths)).map (·.id) = paths.filter (yields d t) := by
  rw [yields, ← ids_filter_loaded, compared, List.map_map]
  rfl

theorem ids_blanks
    (d : Disk)
    (t : Tokenizer)
    (paths : List String) :
    (blanks t (loaded d paths)).map (·.id) =
      paths.filter fun path => loads d path && !yields d t path := by
  have hkind : ∀ path, loadsAs d (fun source => !source.hasTokens t) path =
      (loads d path && !yields d t path) := by
    intro path
    unfold loads yields loadsAs
    cases Source.load d path <;> rfl
  rw [← funext hkind, ← ids_filter_loaded, blanks, List.map_map]
  rfl

theorem ids_refused
    (d : Disk)
    (paths : List String) :
    (refused d paths).map (·.id) = paths.filter (!loads d ·) := by
  induction paths with
  | nil => rfl
  | cons path paths ih =>
      cases hload : Source.load d path with
      | error refusal =>
          have hloads : loads d path = false := loadsAs_of_error hload _
          rw [refused_cons_of_error hload, List.map_cons, ih, List.filter_cons,
            hloads]
          rfl
      | ok source =>
          have hloads : loads d path = true := loadsAs_of_ok hload _
          rw [refused_cons_of_ok hload, ih, List.filter_cons, hloads]
          rfl

/-- What is left out, the refused paths first. -/
def exclusions
    (d : Disk) (t : Tokenizer) (paths : List String) : List Exclusion :=
  refused d paths ++ blanks t (loaded d paths)

theorem compared_insert
    (hpath : yields d t path = false)
    (before after : List String) :
    compared t (loaded d (before ++ path :: after)) =
      compared t (loaded d (before ++ after)) := by
  unfold compared
  rw [loaded_append, loaded_append]
  cases hload : Source.load d path with
  | error refusal => rw [loaded_cons_of_error hload]
  | ok source =>
      rw [yields, loadsAs_of_ok hload] at hpath
      rw [loaded_cons_of_ok hload, List.filter_append, List.filter_append,
        List.filter_cons, hpath]
      rfl

/-- A path that is not compared adds its exclusion, behind those of its kind
before it. -/
theorem exclusions_insert
    (hpath : yields d t path = false)
    (before after : List String) :
    ∃ front exclusion back, exclusion.id = path ∧
      exclusions d t (before ++ after) = front ++ back ∧
      exclusions d t (before ++ path :: after) =
        front ++ exclusion :: back := by
  unfold exclusions blanks
  rw [loaded_append, loaded_append, refused_append, refused_append]
  cases hload : Source.load d path with
  | error refusal =>
      refine ⟨refused d before, ⟨path, refusal.message path⟩, _, rfl,
        List.append_assoc _ _ _, ?_⟩
      rw [loaded_cons_of_error hload, refused_cons_of_error hload,
        List.append_assoc, List.cons_append]
  | ok source =>
      rw [yields, loadsAs_of_ok hload] at hpath
      rw [loaded_cons_of_ok hload, refused_cons_of_ok hload, List.filter_append,
        List.filter_append, List.filter_cons, hpath, List.map_append,
        List.map_append, ← List.append_assoc, ← List.append_assoc]
      exact ⟨_, ⟨source.id, noTokens⟩, _, id_of_load hload, rfl, rfl⟩

end Loading

section Runs

variable {d : Disk} {s : Settings} {paths : List String} {a : Analysis}

theorem ofPaths_eq
    (hvalid : s.fault? = none)
    (paths : List String) :
    ofPaths d s paths =
      ((Comparison.compareAll s.comparison
          (compared s.tokenizer (loaded d paths))).map
        (assemble (exclusions d s.tokenizer paths)
          (compared s.tokenizer (loaded d paths)))).mapError .comparison := by
  rw [ofPaths, hvalid, ofSources_eq]
  rfl

theorem ofPaths_eq_ok_iff :
    ofPaths d s paths = .ok a ↔
      s.fault? = none ∧ ∃ results,
        Comparison.compareAll s.comparison
          (compared s.tokenizer (loaded d paths)) =
            .ok results ∧
          a =
            assemble (exclusions d s.tokenizer paths)
              (compared s.tokenizer (loaded d paths))
            results := by
  cases hvalid : s.fault? with
  | some fault => simp [ofPaths, hvalid]
  | none =>
      rw [ofPaths_eq hvalid]
      cases Comparison.compareAll s.comparison
        (compared s.tokenizer (loaded d paths)) <;>
        simp [Except.map, Except.mapError, eq_comm]

theorem id_get_summaries
    (files : List TokenizedFile)
    (i : Fin files.length) :
    ((files.map TokenizedFile.summary).get
      (i.cast (List.length_map _).symm)).id =
      (files.get i).id := by
  rw [List.get_eq_getElem, List.getElem_map]
  rfl

/-- Files and exclusions list every path once, in input order and with
multiplicity, and a path that is not compared changes nothing but the
exclusions. -/
theorem ofPaths_accounts (hrun : ofPaths d s paths = .ok a) :
    a.files.map (·.id) = paths.filter (yields d s.tokenizer) ∧
      a.excluded.map (·.id) =
        paths.filter (!loads d ·) ++
          paths.filter
            (fun path => loads d path && !yields d s.tokenizer path) ∧
      (∀ c ∈ a.results, ∃ i j : Fin a.files.length,
        i < j ∧ c.fileA = (a.files.get i).id ∧ c.fileB = (a.files.get j).id) ∧
      (a.statistics.isSome = true ↔ a.results ≠ []) ∧
      (∀ statistics, a.statistics = some statistics →
        statistics.totalPairs = a.results.length) ∧
      ∀ before path after, paths = before ++ after →
        yields d s.tokenizer path = false →
        ∃ front exclusion back, exclusion.id = path ∧
          a.excluded = front ++ back ∧
          ofPaths d s (before ++ path :: after) =
            .ok { a with excluded := front ++ exclusion :: back } := by
  obtain ⟨hvalid, results, hresults, rfl⟩ := ofPaths_eq_ok_iff.1 hrun
  refine ⟨?_, ?_, ?_, Statistics.aggregate_isSome_iff results,
    fun _ => Statistics.totalPairs_of_aggregate, ?_⟩
  · rw [← ids_compared]
    exact List.map_map
  · rw [← ids_refused, ← ids_blanks, ← List.map_append]
    rfl
  · intro c hc
    obtain ⟨_, hfault, rfl⟩ := Comparison.compareAll_eq_ok_iff.1 hresults
    obtain ⟨i, j, hij, hfirst, hsecond⟩ :=
      Comparison.names_of_mem_retained hfault hc
    refine ⟨i.cast (List.length_map _).symm, j.cast (List.length_map _).symm,
      hij, ?_, ?_⟩
    · exact hfirst.trans (id_get_summaries _ i).symm
    · exact hsecond.trans (id_get_summaries _ j).symm
  · rintro before path after rfl hpath
    obtain ⟨front, exclusion, back, hid, hold, hnew⟩ :=
      exclusions_insert hpath before after
    refine ⟨front, exclusion, back, hid, hold, ?_⟩
    rw [ofPaths_eq_ok_iff, compared_insert hpath]
    refine ⟨hvalid, results, hresults, ?_⟩
    rw [hnew]
    rfl

/-- Two sources, a source without tokens and a directory. -/
def shelf : Disk where
  entries :=
    [(["a.py"], .file "x = 1".toUTF8), (["b.py"], .file "x = 2".toUTF8),
      (["notes.py"], .file "# nothing".toUTF8), (["src.c"], .directory)]
  home := []

def visits : List String := ["gone.py", "a.py", "notes.py", "b.py", "a.py"]

theorem ofPaths_visits :
    ∃ a, ofPaths shelf {} visits = .ok a ∧
      a.files.map (·.id) = ["a.py", "b.py", "a.py"] ∧
      a.excluded.map (·.id) = ["gone.py", "notes.py"] ∧
      (∀ path ∈ ["src.c", "notes.py", "gone.py"],
        ∃ front exclusion back, exclusion.id = path ∧
          a.excluded = front ++ back ∧
          ofPaths shelf {} (visits.take 3 ++ path :: visits.drop 3) =
            .ok { a with excluded := front ++ exclusion :: back }) := by
  have hvalid : ({} : Settings).fault? = none := by decide +kernel
  have hfault : ({} : Settings).comparison.fault? = none := by decide +kernel
  have hmany : 2 ≤
      (compared ({} : Settings).tokenizer (loaded shelf visits)).length := by
    decide +kernel
  have hrun := ofPaths_eq_ok_iff.2
    ⟨hvalid, _, Comparison.compareAll_eq_ok_iff.2 ⟨hmany, hfault, rfl⟩, rfl⟩
  obtain ⟨hfiles, hexcluded, _, _, _, hinsert⟩ := ofPaths_accounts hrun
  refine ⟨_, hrun, hfiles.trans (by decide +kernel),
    hexcluded.trans (by decide +kernel), ?_⟩
  intro path hpath
  have hblank : ∀ path ∈ ["src.c", "notes.py", "gone.py"],
      yields shelf ({} : Settings).tokenizer path = false := by decide +kernel
  exact hinsert (visits.take 3) path (visits.drop 3) rfl (hblank path hpath)

end Runs

end Analysis

end Resemblance
