import Resemblance.Exchange
import Resemblance.Settings
import Resemblance.Source
import Resemblance.Yaml.Access
import Resemblance.Yaml.Reader

/-!
# Reading settings

Every section may be left out but the version.  Unknown fields are ignored, and
of two overrides for one language the later holds.
-/

namespace Resemblance

open Document

section Reading

variable {δ : Type} [Document δ]

def ReportSettings.fieldNames : List String :=
  ["format", "output", "show_statistics"]

def ReportSettings.ofDocument? (d : δ) : Option ReportSettings := do
  let default : ReportSettings := {}
  match ← fields? ReportSettings.fieldNames d with
  | [format, output, showStatistics] =>
    let format ← orDefault default.format (choice ReportFormat.named?) format
    let output ← orDefault default.output string? output
    let showStatistics ← orDefault default.showStatistics bool? showStatistics
    some { format, output, showStatistics }
  | _ => none

def ProfileOverride.ofDocument? (d : δ) : Option ProfileOverride := do
  match ← fields? ["keywords", "comments"] d with
  | [keywords, comments] =>
    let words (d : δ) : Option (List String) := (items? d).bind (·.mapM string?)
    let keywords ← orDefault none (nullable words) keywords
    let comments ←
      orDefault none (nullable (choice CommentStyle.named?)) comments
    some { keywords, comments }
  | _ => none

def setOverride (entry : Language × ProfileOverride) :
    List (Language × ProfileOverride) → List (Language × ProfileOverride)
  | [] => [entry]
  | other :: rest =>
    if other.1 = entry.1 then entry :: rest else other :: setOverride entry rest

def overridesOfDocument? (d : δ) :
    Option (List (Language × ProfileOverride)) := do
  let entries ← entries? d
  let read ← entries.mapM fun (key, value) => do
    let language ← choice Language.named? key
    let override ← ProfileOverride.ofDocument? value
    some (language, override)
  some (read.foldl (fun all entry => setOverride entry all) [])

def Settings.ofDocument? (d : δ) : Option Settings := do
  match ← fields? ["version", "name", "compare", "report", "languages"] d with
  | [version, name, comparison, report, overrides] =>
    let version ← required string? version
    let name ← orDefault none (nullable string?) name
    let comparison ← orDefault {} ComparisonSettings.ofDocument? comparison
    let report ← orDefault {} ReportSettings.ofDocument? report
    let overrides ← orDefault [] overridesOfDocument? overrides
    some { version, name, comparison, report, overrides }
  | _ => none

end Reading

namespace Settings

inductive ReadError where
  | unreadable (error : DiskError)
  | malformed
  | invalid (fault : Fault)
  deriving DecidableEq

/-- An error and what caused it, the outermost first. -/
def ReadError.messages : ReadError → List String
  | .unreadable e => ["failed to read config file: " ++ e.message, e.message]
  | .malformed => ["failed to parse YAML: no settings in the document"]
  | .invalid fault => [fault.message]

/-- How often aliases are followed while settings are read. -/
def follows : Yaml.Place → Nat :=
  let simple (names : List String) : List (String × (Yaml.Place → Nat)) :=
    names.map fun name => (name, Yaml.Place.follows)
  let override := Yaml.Place.followsInFields
    [("keywords", Yaml.Place.followsInItems Yaml.Place.follows),
      ("comments", Yaml.Place.follows)]
  Yaml.Place.followsInFields <|
    simple ["version", "name"] ++
      [("compare",
          Yaml.Place.followsInFields (simple ComparisonSettings.fieldNames)),
        ("report",
          Yaml.Place.followsInFields (simple ReportSettings.fieldNames)),
        ("languages", Yaml.Place.followsInEntries override)]

/-- Settings from a document; aliases may be followed a hundred times for each
node of it. -/
def ofYaml? (yaml : String) : Option Settings := do
  let p ← Yaml.read? yaml
  if 100 * p.node.size < follows p then none
  Settings.ofDocument? p

def read (yaml : String) : Except ReadError Settings :=
  match ofYaml? yaml with
  | none => .error .malformed
  | some s =>
    match s.fault? with
    | some fault => .error (.invalid fault)
    | none => .ok s

def load (d : Disk) (path : String) : Except ReadError Settings :=
  match d.readText path with
  | .error e => .error (.unreadable e)
  | .ok yaml => read yaml

end Settings

end Resemblance
