import Resemblance.CommandLine.Request
import Resemblance.CommandLine.Table
import Resemblance.Report
import Resemblance.Settings.Reader

/-!
# Running a comparison

A run first only reads: it makes a plan of what is shown and which report is
written.  Carrying the plan out writes the report and nothing else.
-/

namespace Resemblance.CommandLine

inductive Failure where
  | tooFewFiles
  | threshold
  | settings (path : String) (error : Settings.ReadError)
  | analysis (failure : Analysis.Failure)
  | report (format : ReportFormat) (error : DiskError)

/-- A failure and what caused it, the outermost first. -/
def Failure.messages : Failure → List String
  | .tooFewFiles => ["at least 2 files are required for comparison"]
  | .threshold => ["threshold must be between 0.0 and 1.0"]
  | .settings path error => ("loading config " ++ path) :: error.messages
  | .analysis failure => failure.messages
  | .report format error =>
    [s!"writing {format.extension} report", error.message]

/-- The line that tells of a failure, with all its causes. -/
def Failure.line (f : Failure) : String :=
  "error: " ++ ": ".intercalate f.messages ++ "\n"

/-- What was asked for on the command line goes before what the settings say. -/
def Request.override (r : Request) (s : Settings) : Settings :=
  { s with
    comparison :=
      { s.comparison with
        threshold := r.threshold.getD s.comparison.threshold
        parallel := s.comparison.parallel || r.parallel }
    report :=
      { format := r.format.getD s.report.format
        output := r.output.getD s.report.output
        showStatistics := s.report.showStatistics && !r.noStatistics } }

/-- The settings in force; without a file the default ones are overridden. -/
def Request.effective (r : Request) (d : Disk) : Except Failure Settings :=
  match r.settings with
  | none => .ok (r.override {})
  | some path =>
    match Settings.load d path with
    | .error e => .error (.settings path e)
    | .ok s => .ok (r.override s)

/-- What a run does once all is read. -/
structure Plan where
  settings : Settings
  analysis : Analysis

def Request.plan (r : Request) (d : Disk) : Except Failure Plan := do
  if r.files.length < 2 then throw .tooFewFiles
  if r.threshold.any (!ComparisonSettings.inUnit ·) then throw .threshold
  let settings ← r.effective d
  let analysis ← (Analysis.ofPaths d settings r.files).mapError .analysis
  return { settings, analysis }

namespace Plan

/-- No report is written where no pair was kept. -/
def writesReport (p : Plan) : Bool := !p.analysis.results.isEmpty

def reportPath (p : Plan) : String :=
  Report.path p.settings.report.output p.settings.report.format

def report (p : Plan) (moment : Calendar.Moment) : String :=
  Report.render p.analysis moment p.settings.report.format

def noneFoundLines (p : Plan) : List String :=
  ["", "No similarities found above threshold " ++
    String.ofList (Decimal.plain p.settings.comparison.threshold)]

def statisticsLines (p : Plan) : List String :=
  if p.settings.report.showStatistics then
    (p.analysis.statistics.map CommandLine.statisticsLines).getD []
  else []

/-- What is shown before a report is written. -/
def shown (p : Plan) : String :=
  joinLines (tableLines p.analysis ++
    if p.writesReport then p.statisticsLines else p.noneFoundLines)

/-- What is shown after the report was written. -/
def confirmation (p : Plan) : String :=
  joinLines ["", "Report written: " ++ p.reportPath]

def writingFailed (p : Plan) (e : DiskError) : Failure :=
  .report p.settings.report.format e

end Plan

/-- What is left of a run. -/
structure Outcome where
  shown : String
  failure : Option Failure
  disk : Disk

def Plan.carryOut (p : Plan) (moment : Calendar.Moment) (d : Disk) : Outcome :=
  if p.writesReport then
    match
        Report.write d p.analysis moment p.settings.report.output
          p.settings.report.format with
    | .ok written =>
      { shown := p.shown ++ p.confirmation, failure := none, disk := written }
    | .error e =>
      { shown := p.shown, failure := some (p.writingFailed e), disk := d }
  else { shown := p.shown, failure := none, disk := d }

def Request.run (r : Request) (moment : Calendar.Moment) (d : Disk) : Outcome :=
  match r.plan d with
  | .error failure => { shown := "", failure := some failure, disk := d }
  | .ok plan => plan.carryOut moment d

end Resemblance.CommandLine
