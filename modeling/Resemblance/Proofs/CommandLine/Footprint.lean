import Resemblance.CommandLine.Run
import Resemblance.Proofs.Analysis.Accounting
import Resemblance.Proofs.Disk.Writing

/-!
# What a run leaves on the disk

A run that fails or keeps no pair leaves the disk as it was, and any other run
changes the location of its report alone.  The extension of a report is none
that a source may have, so no source is written over.
-/

namespace Resemblance

section Extensions

variable {d : Disk} {l : Location} {path base : String} {f : ReportFormat}

theorem Report.exists_fileName?_path
    (base : String)
    (f : ReportFormat) :
    ∃ p, Path.fileName? (Report.path base f) =
      some (p ++ '.' :: f.extension.toList) := by
  have hpath : (Report.path base f).toList =
      base.toList ++ '.' :: f.extension.toList := by
    simp [Report.path, String.toList_append]
  apply Path.exists_fileName?_append _ _ _ hpath <;> cases f <;> decide

theorem Report.hasAcceptedExtension_path
    (base : String)
    (f : ReportFormat) :
    Source.hasAcceptedExtension (Report.path base f) = false := by
  obtain ⟨p, hname⟩ := Report.exists_fileName?_path base f
  have hdot : '.' ∉ f.extension.toList := by cases f <;> decide
  rw [Source.hasAcceptedExtension, Path.extension?, hname, Option.bind_eq_bind,
    Option.bind_some, Path.extensionOf?_append hdot]
  split
  next => rfl
  next => cases f <;> decide +kernel

theorem Source.exists_location_of_load
    {source : Source}
    (hload : Source.load d path = .ok source) :
    ∃ l, d.locate path = .ok l := by
  obtain ⟨-, content, text, hlook, -⟩ := Source.load_eq_ok_iff.1 hload
  obtain ⟨l, hlocate, -⟩ := exists_of_bind_eq_ok hlook
  exact ⟨l, hlocate⟩

/-- A report goes to another place than a source, however their paths are
spelled. -/
theorem Report.locate_path_ne_of_load
    {source : Source} {target : Location}
    (hload : Source.load d path = .ok source)
    (hsource : d.locate path = .ok l)
    (htarget : d.locate (Report.path base f) = .ok target) :
    l ≠ target := by
  rintro rfl
  obtain ⟨p, hreport⟩ := Report.exists_fileName?_path base f
  obtain ⟨haccepted, -⟩ := Source.load_eq_ok_iff.1 hload
  have hrefused := Report.hasAcceptedExtension_path base f
  cases hname : Path.fileName? path with
  | none =>
      rw [Source.hasAcceptedExtension, Path.extension?, hname] at haccepted
      contradiction
  | some name =>
      obtain rfl := Disk.fileName?_eq_of_locate_eq hsource htarget hname hreport
      rw [Source.hasAcceptedExtension, Path.extension?, hname,
        ← hreport] at haccepted
      rw [Source.hasAcceptedExtension, Path.extension?, haccepted] at hrefused
      contradiction

end Extensions

namespace CommandLine

variable {d : Disk} {r : Request} {p : Plan}

/-- The settings before anything on the command line goes before them. -/
def Request.given
    (r : Request) (d : Disk) : Except Settings.ReadError Settings :=
  match r.settings with
  | none => .ok {}
  | some path => Settings.load d path

theorem Request.exists_given_of_effective
    {s : Settings}
    (heffective : r.effective d = .ok s) :
    ∃ given, r.given d = .ok given ∧ s = r.override given := by
  unfold effective at heffective
  unfold given
  cases hsettings : r.settings with
  | none =>
      rw [hsettings] at heffective
      exact ⟨{}, rfl, (Except.ok.inj heffective).symm⟩
  | some path =>
      simp only [hsettings] at heffective
      split at heffective
      next => contradiction
      next given hload => exact ⟨given, hload, (Except.ok.inj heffective).symm⟩

theorem eq_ok_of_mapError_eq_ok
    {ε ε' α : Type} {f : ε → ε'} {x : Except ε α} {a : α}
    (hmapped : x.mapError f = .ok a) :
    x = .ok a := by
  cases x with
  | error e => contradiction
  | ok b => exact congrArg Except.ok (Except.ok.inj hmapped)

theorem Request.exists_given_of_plan
    (hplan : r.plan d = .ok p) :
    ∃ given, r.given d = .ok given ∧ p.settings = r.override given ∧
      Analysis.ofPaths d p.settings r.files = .ok p.analysis := by
  simp only [plan] at hplan
  split at hplan
  next => contradiction
  next =>
    split at hplan
    next => contradiction
    next =>
      obtain ⟨settings, heffective, hrest⟩ := exists_of_bind_eq_ok hplan
      obtain ⟨analysis, hanalysis, hend⟩ := exists_of_bind_eq_ok hrest
      obtain rfl := Except.ok.inj hend
      obtain ⟨given, hgiven, rfl⟩ := exists_given_of_effective heffective
      exact ⟨given, hgiven, rfl, eq_ok_of_mapError_eq_ok hanalysis⟩

/-- All that can come of a plan: nothing to write, a report, or a report that
cannot be written. -/
theorem Plan.carryOut_cases
    (p : Plan)
    (moment : Calendar.Moment)
    (d : Disk) :
    (p.analysis.results = [] ∧
      p.carryOut moment d = { shown := p.shown, failure := none, disk := d }) ∨
    (p.analysis.results ≠ [] ∧ ∃ written,
      d.writeText p.reportPath (p.report moment) = .ok written ∧
        p.carryOut moment d =
          { shown := p.shown ++ p.confirmation
            failure := none
            disk := written }) ∨
    (p.analysis.results ≠ [] ∧ ∃ e,
      d.writeText p.reportPath (p.report moment) = .error e ∧
        p.carryOut moment d =
          { shown := p.shown
            failure := some (p.writingFailed e)
            disk := d }) := by
  by_cases hnone : p.analysis.results = []
  · refine .inl ⟨hnone, ?_⟩
    rw [carryOut, writesReport, hnone]
    rfl
  · have hwrites : p.writesReport = true := by simp [writesReport, hnone]
    unfold carryOut
    rw [if_pos hwrites]
    cases hwrite : Report.write d p.analysis moment p.settings.report.output
        p.settings.report.format with
    | ok written => exact .inr (.inl ⟨hnone, written, hwrite, rfl⟩)
    | error e => exact .inr (.inr ⟨hnone, e, hwrite, rfl⟩)

/-- Every compared file was loaded from somewhere else than where a report
goes. -/
theorem exists_location_ne_of_mem_files
    {s : Settings} {paths : List String} {a : Analysis} {base : String}
    {format : ReportFormat} {target : Location}
    (hrun : Analysis.ofPaths d s paths = .ok a)
    (htarget : d.locate (Report.path base format) = .ok target)
    {f : FileSummary}
    (hf : f ∈ a.files) :
    ∃ source, d.locate f.id = .ok source ∧ source ≠ target := by
  obtain ⟨-, results, -, rfl⟩ := Analysis.ofPaths_eq_ok_iff.1 hrun
  obtain ⟨file, hfile, rfl⟩ := List.mem_map.1 hf
  have hid : file.id ∈ paths.filter (Analysis.yields d s.tokenizer) := by
    rw [← Analysis.ids_compared]
    exact List.mem_map_of_mem hfile
  have hyields := (List.mem_filter.1 hid).2
  rw [Analysis.yields, Analysis.loadsAs] at hyields
  split at hyields
  next source hload =>
    obtain ⟨l, hlocate⟩ := Source.exists_location_of_load hload
    exact ⟨l, hlocate, Report.locate_path_ne_of_load hload hlocate htarget⟩
  next => contradiction

/-- What was shown and what was written are of one analysis. -/
theorem run_writes_only_report
    (arguments : List String)
    (r : Request)
    (moment : Calendar.Moment)
    (d : Disk) :
    Command.ofArguments arguments = .compare r →
      ((r.run moment d).failure ≠ none → (r.run moment d).disk = d) ∧
      ((r.run moment d).failure = none →
        ∃ given analysis, r.given d = .ok given ∧
          Analysis.ofPaths d (r.override given) r.files = .ok analysis ∧
          let plan : Plan :=
            { settings := r.override given, analysis := analysis }
          let base := r.output.getD given.report.output
          let format := r.format.getD given.report.format
          (analysis.results = [] →
            (r.run moment d).shown = plan.shown ∧ (r.run moment d).disk = d) ∧
          (analysis.results ≠ [] →
            (r.run moment d).shown = plan.shown ++ plan.confirmation ∧
              ∃ target,
                d.locate (base ++ "." ++ format.extension) = .ok target ∧
                (r.run moment d).disk.find? target =
                  some (.file (Report.render analysis moment format).toUTF8) ∧
                (r.run moment d).disk.DiffersOnlyAt d target ∧
                ∀ f ∈ analysis.files, ∃ source, d.locate f.id = .ok source ∧
                  source ≠ target)) := by
  intro _
  cases hplan : r.plan d with
  | error failure =>
      have hrun : r.run moment d =
          { shown := "", failure := some failure, disk := d } := by
        rw [Request.run, hplan]
      rw [hrun]
      exact ⟨fun _ => rfl, fun h => nomatch h⟩
  | ok plan =>
      have hrun : r.run moment d = plan.carryOut moment d := by
        rw [Request.run, hplan]
      obtain ⟨given, hgiven, hsettings, hanalysis⟩ :=
        Request.exists_given_of_plan hplan
      obtain ⟨settings, analysis⟩ := plan
      obtain rfl : settings = r.override given := hsettings
      rcases Plan.carryOut_cases _ moment d with
        ⟨hnone, hout⟩ | ⟨hsome, written, hwrite, hout⟩ | ⟨-, e, -, hout⟩ <;>
          rw [hrun, hout]
      · refine ⟨fun h => absurd rfl h,
          fun _ => ⟨given, analysis, hgiven, hanalysis, ?_⟩⟩
        exact ⟨fun _ => ⟨rfl, rfl⟩, fun h => absurd hnone h⟩
      · refine ⟨fun h => absurd rfl h,
          fun _ => ⟨given, analysis, hgiven, hanalysis, ?_⟩⟩
        obtain ⟨target, htarget, hheld, hothers⟩ :=
          Disk.exists_location_of_writeText hwrite
        refine ⟨fun h => absurd h hsome,
          fun _ => ⟨rfl, target, htarget, hheld, hothers, ?_⟩⟩
        intro f hf
        exact exists_location_ne_of_mem_files hanalysis htarget hf
      · exact ⟨fun _ => rfl, fun h => nomatch h⟩

section Versions

open Analysis (shelf)

/-- The report goes by a base with a directory and a dot in it. -/
def versioned : Request where
  files := ["a.py", "b.py", "a.py"]
  output := some "./out.v2"

theorem run_writes_versioned_report :
    Command.ofArguments ["a.py", "-o", "./out.v2", "b.py", "a.py"] =
      .compare versioned ∧
      (versioned.run (.ofSeconds 0) shelf).failure = none ∧
      ∃ analysis, analysis.results ≠ [] ∧
        (versioned.run (.ofSeconds 0) shelf).disk.find? ["out.v2.csv"] =
          some (.file (Report.csv analysis).toUTF8) ∧
        (versioned.run (.ofSeconds 0) shelf).disk.DiffersOnlyAt shelf
          ["out.v2.csv"] := by
  have harguments :
      Command.ofArguments ["a.py", "-o", "./out.v2", "b.py", "a.py"] =
        .compare versioned := rfl
  have hsucceeds : (versioned.run (.ofSeconds 0) shelf).failure = none :=
    Option.isNone_iff_eq_none.1 (by decide +kernel)
  have hwrites :
      ((versioned.run (.ofSeconds 0) shelf).disk.find? ["out.v2.csv"]).isSome =
        true := by
    decide +kernel
  have hlocate : shelf.locate "./out.v2.csv" = .ok ["out.v2.csv"] := by
    decide +kernel
  obtain ⟨-, hsuccess⟩ :=
    run_writes_only_report _ versioned (.ofSeconds 0) shelf harguments
  obtain ⟨given, analysis, hgiven, -, hnone, hsome⟩ := hsuccess hsucceeds
  obtain rfl : {} = given := Except.ok.inj hgiven
  have hkept : analysis.results ≠ [] := by
    intro h
    rw [(hnone h).2] at hwrites
    exact absurd hwrites (by decide +kernel)
  obtain ⟨-, target, htarget, hheld, hothers, -⟩ := hsome hkept
  obtain rfl : ["out.v2.csv"] = target :=
    Except.ok.inj (hlocate.symm.trans htarget)
  exact ⟨harguments, hsucceeds, analysis, hkept, hheld, hothers⟩

end Versions

end CommandLine

end Resemblance
