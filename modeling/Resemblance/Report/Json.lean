import Resemblance.Analysis
import Resemblance.Calendar
import Resemblance.Exchange
import Resemblance.Json.Writer

/-!
# The report for programs
-/

namespace Resemblance

def FileSummary.toJson (f : FileSummary) : Json :=
  .object
    [("id", .string f.id), ("name", .string f.name),
      ("language", .string f.language.name),
      ("token_count", .ofNat f.tokenCount)]

def Exclusion.toJson (e : Exclusion) : Json :=
  .object [("id", .string e.id), ("reason", .string e.reason)]

def Analysis.toJson (a : Analysis) : Json :=
  .object
    [("files", .array (a.files.map (·.toJson))),
      ("excluded", .array (a.excluded.map (·.toJson))),
      ("results", .array (a.results.map (·.toJson))),
      ("statistics", Statistics.optionToJson a.statistics)]

namespace Report

/-- The version of the program that its reports name. -/
def version : String := "0.1.0"

def jsonDocument (a : Analysis) (moment : Calendar.Moment) : Json :=
  .object
    [("metadata", .object
        [("generated_at", .string moment.timestamp),
          ("version", .string version),
          ("files_processed", .ofNat a.files.length)]),
      ("files", .array (a.files.map fun f =>
        .object [("name", .string f.name), ("path", .string f.id)])),
      ("comparisons", .array (a.results.map (·.toJson))),
      ("statistics", Statistics.optionToJson a.statistics)]

def json (a : Analysis) (moment : Calendar.Moment) : String :=
  (jsonDocument a moment).indented

end Report

end Resemblance
