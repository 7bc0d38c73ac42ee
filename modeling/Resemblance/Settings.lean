import Resemblance.Comparison.Run
import Resemblance.Report.Format
import Resemblance.Tokenizer

/-!
# Settings of a run

Settings hold how files are compared, what report is written, and what differs
from the default profile of each language.
-/

namespace Resemblance

structure ReportSettings where
  format : ReportFormat := .csv
  /-- The path of the report without its extension. -/
  output : String := "similarity_report"
  showStatistics : Bool := true
  deriving DecidableEq

/-- What replaces parts of the default profile of one language. -/
structure ProfileOverride where
  keywords : Option (List String) := none
  comments : Option CommentStyle := none
  deriving DecidableEq

structure Settings where
  version : String := "1.0"
  name : Option String := none
  comparison : ComparisonSettings := {}
  report : ReportSettings := {}
  /-- At most one entry for each language. -/
  overrides : List (Language × ProfileOverride) := []

namespace Settings

/-- What makes settings invalid although every part of them could be read. -/
inductive Fault where
  | version (found : String)
  | comparison (fault : ComparisonSettings.Fault)
  | output
  | keywords (language : Language)
  deriving DecidableEq

def Fault.message : Fault → String
  | .version found => s!"unsupported config version: {found}"
  | .comparison fault =>
    "validation error: compare: " ++
      (Comparison.Failure.invalidSettings fault).message
  | .output => "validation error: report.output must not be empty"
  | .keywords language =>
    s!"validation error: languages.{language.name}.keywords must be identifiers"

def isIdentifier (word : String) : Bool :=
  match word.toList with
  | [] => false
  | c :: rest => Piece.isWordStart c && rest.all Piece.isWordPart

def hasIdentifiers (o : ProfileOverride) : Bool :=
  (o.keywords.getD []).all isIdentifier

/-- The first fault: version, comparison, report, then the languages in their
order. -/
def fault? (s : Settings) : Option Fault :=
  if s.version ≠ "1.0" ∧ s.version ≠ "1" then some (.version s.version)
  else match s.comparison.fault? with
    | some fault => some (.comparison fault)
    | none =>
      if Text.isBlankString s.report.output then some .output
      else
        (s.overrides.find? fun (_, o) => !hasIdentifiers o).map
          fun (l, _) => .keywords l

end Settings

def ProfileOverride.apply (o : ProfileOverride) (p : Profile) : Profile where
  comments := o.comments.getD p.comments
  keywords := (o.keywords.map KeywordSet.ofList).getD p.keywords

/-- The default profiles with the overrides applied one after the other. -/
def Settings.tokenizer (s : Settings) : Tokenizer :=
  s.overrides.foldl
    (fun t (l, o) => t.withProfile l (o.apply (t.profile l))) .default

end Resemblance
