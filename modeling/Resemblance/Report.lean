import Resemblance.Report.Csv
import Resemblance.Report.Markdown

/-!
# Reports

A report is written beside its base path, under the extension of its format.
-/

namespace Resemblance.Report

def render (a : Analysis) (moment : Calendar.Moment) : ReportFormat → String
  | .csv => csv a
  | .json => json a moment
  | .markdown => markdown a moment

def path (base : String) (f : ReportFormat) : String :=
  base ++ "." ++ f.extension

def write
    (d : Disk) (a : Analysis) (moment : Calendar.Moment) (base : String)
    (f : ReportFormat) : Except DiskError Disk :=
  d.writeText (path base f) (render a moment f)

end Resemblance.Report
