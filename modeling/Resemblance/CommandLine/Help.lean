import Resemblance.CommandLine.Parameter
import Resemblance.Report.Json

/-!
# Help texts

The short help has one line for each parameter.  The detailed help leaves a
blank line between parameters and says more of the program.
-/

namespace Resemblance.CommandLine

def programName : String := "codesim"

def versionText : String := s!"{programName} {Report.version}\n"

/-- A parameter as it is written on the command line. -/
def Parameter.spelling (p : Parameter) : String :=
  let letter := match p.letter? with
    | some c => String.ofList ['-', c, ',', ' ']
    | none => "    "
  let value := match p.valueName? with
    | some name => s!" <{name}>"
    | none => ""
  letter ++ "--" ++ p.name ++ value

def Parameter.purpose (detailed : Bool) : Parameter → String
  | threshold =>
    "Minimum similarity (0.0-1.0) a pair needs on any metric to be reported"
  | format => "Report format: csv, json or md"
  | output => "Report path without extension"
  | noStatistics => "Do not print summary statistics"
  | parallel => "Score pairs in parallel"
  | settings => "YAML configuration file; command-line flags take precedence"
  | logLevel => "Log filter used when RUST_LOG is not set"
  | help =>
    if detailed then "Print help (see a summary with '-h')"
    else "Print help (see more with '--help')"
  | version => "Print version"

/-- The value that holds when a parameter is left out, if the help names it. -/
def Parameter.defaultNote? : Parameter → Option String
  | logLevel => some "[default: warn]"
  | _ => none

def indent : String := "          "

/-- Pads a spelling so that all purposes begin in one column. -/
def column (width : Nat) (s : String) : String :=
  String.ofList (s.toList.rightpad width ' ')

def Parameter.briefLine (width : Nat) (p : Parameter) : String :=
  let note := match p.defaultNote? with
    | some note => " " ++ note
    | none => ""
  "  " ++ column width p.spelling ++ "  " ++ p.purpose false ++ note

def Parameter.detailedLines (p : Parameter) : List String :=
  let note := match p.defaultNote? with
    | some note => [indent, indent ++ note]
    | none => []
  ["", "  " ++ p.spelling, indent ++ p.purpose true] ++ note

def title : String := "Source code similarity analyzer"

def description : String :=
  "Compares every pair of the given files with cosine similarity, the " ++
    "Jaccard index and the Levenshtein ratio over normalized tokens, then " ++
    "writes a CSV, JSON or Markdown report."

def examples : List String :=
  ["Examples:", "  codesim a.py b.py c.py",
    "  codesim *.py --threshold 0.5 --format md",
    "  codesim src/*.java --format json --output java_report"]

def usage : String := s!"Usage: {programName} [OPTIONS] [FILES]..."

def filesPurpose : String := "Source files to compare (at least 2)"

def briefHelp : List String :=
  let width := (Parameter.all.map (·.spelling.length)).foldl max 0
  [title, "", usage, "", "Arguments:", "  [FILES]...  " ++ filesPurpose, "",
      "Options:"] ++
    Parameter.all.map (·.briefLine width) ++ "" :: examples

def detailedHelp : List String :=
  [title, "", description, "", usage, "", "Arguments:", "  [FILES]...",
      indent ++ filesPurpose, "", "Options:"] ++
    (Parameter.all.flatMap (·.detailedLines)).drop 1 ++ "" :: examples

def helpText (detailed : Bool) : String :=
  String.join ((if detailed then detailedHelp else briefHelp).map (· ++ "\n"))

end Resemblance.CommandLine
