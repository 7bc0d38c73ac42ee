import Resemblance.Text.Strings

/-!
# Report formats
-/

namespace Resemblance

inductive ReportFormat where
  | csv
  | json
  | markdown
  deriving DecidableEq, Repr

namespace ReportFormat

def all : List ReportFormat := [csv, json, markdown]

/-- The extension is also the name under which a format is shown. -/
def extension : ReportFormat → String
  | csv => "csv"
  | json => "json"
  | markdown => "md"

/-- Markdown has a long name beside its short one. -/
def named? : String → Option ReportFormat
  | "csv" => some csv
  | "json" => some json
  | "md" | "markdown" => some markdown
  | _ => none

theorem named?_extension (f : ReportFormat) : named? f.extension = some f := by
  cases f <;> rfl

structure ParseError where
  text : String
  deriving DecidableEq

def ParseError.message (e : ParseError) : String :=
  s!"unknown report format `{e.text}` (expected csv, json or md)"

def parse (text : String) : Except ParseError ReportFormat :=
  match named? (Text.asciiLowered (Text.trimmed text)) with
  | some f => .ok f
  | none => .error ⟨text⟩

end ReportFormat

end Resemblance
