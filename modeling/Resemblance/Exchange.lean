import Resemblance.Comparison.Settings
import Resemblance.Document
import Resemblance.Json.Basic
import Resemblance.Statistics
import Resemblance.Token

/-!
# Results as JSON and settings from documents

Each value has one form in JSON, with its members in a fixed order.  What is
read may come in any order and from any notation.
-/

namespace Resemblance

open Document

def Token.listToJson (ts : List Token) : Json :=
  .array (ts.map fun t => .string t.text)

def Comparison.toJson (c : Comparison) : Json :=
  .object
    [("file_a", .string c.fileA), ("file_b", .string c.fileB),
      ("cosine", .ofFloat c.cosine), ("jaccard", .ofFloat c.jaccard),
      ("levenshtein", .ofFloat c.levenshtein)]

def Range.toJson (r : Range) : Json :=
  .object
    [("min", .ofFloat r.min), ("mean", .ofFloat r.mean),
      ("max", .ofFloat r.max)]

/-- One flat object; the number of pairs stays a whole number. -/
def Statistics.toJson (s : Statistics) : Json :=
  .object ((s.scoreEntries.map fun (key, x) => (key, .ofFloat x)) ++
    [(totalPairsKey, .ofNat s.totalPairs)])

def Statistics.optionToJson (s : Option Statistics) : Json :=
  (s.map (·.toJson)).getD .null

section Reading

variable {δ : Type} [Document δ]

def ComparisonSettings.fieldNames : List String :=
  ["version", "threshold", "precision", "use_parallel"]

def ComparisonSettings.ofDocument? (d : δ) : Option ComparisonSettings := do
  let default : ComparisonSettings := {}
  match ← fields? ComparisonSettings.fieldNames d with
  | [version, threshold, precision, parallel] =>
    let version ← orDefault default.version (nat? 32) version
    let threshold ← orDefault default.threshold float? threshold
    let precision ← orDefault default.precision (nat? 32) precision
    let parallel ← orDefault default.parallel bool? parallel
    some { version, threshold, precision, parallel }
  | _ => none

def Comparison.ofDocument? (d : δ) : Option Comparison := do
  match ←
      fields? ["file_a", "file_b", "cosine", "jaccard", "levenshtein"] d with
  | [fileA, fileB, cosine, jaccard, levenshtein] =>
    let fileA ← required string? fileA
    let fileB ← required string? fileB
    let cosine ← required float? cosine
    let jaccard ← required float? jaccard
    let levenshtein ← required float? levenshtein
    some { fileA, fileB, cosine, jaccard, levenshtein }
  | _ => none

def Range.ofDocument? (d : δ) : Option Range := do
  match ← fields? ["min", "mean", "max"] d with
  | [min, mean, max] =>
    let min ← required float? min
    let mean ← required float? mean
    let max ← required float? max
    some { min, mean, max }
  | _ => none

end Reading

end Resemblance
