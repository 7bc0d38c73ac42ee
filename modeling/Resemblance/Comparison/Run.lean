import Resemblance.Comparison
import Resemblance.Comparison.Pairs
import Resemblance.Comparison.Settings
import Resemblance.Language
import Resemblance.Measure.Cosine
import Resemblance.Measure.EditDistance
import Resemblance.Measure.Jaccard
import Resemblance.Token

/-!
# Comparing files

Every pair of files is scored once, in input order.  A pair is kept when its
largest score reaches the threshold, and only then are its scores rounded.
-/

namespace Resemblance

structure TokenizedFile where
  id : String
  language : Language
  tokens : List Token
  /-- The tokens in one line, for the edit distance. -/
  flat : List Char := Token.flatten tokens
  flat_eq : flat = Token.flatten tokens := by rfl
  deriving DecidableEq

def TokenizedFile.terms (f : TokenizedFile) : List String :=
  f.tokens.map (·.text)

def TokenizedFile.frequency (f : TokenizedFile) : Frequency := .ofTerms f.terms

/-- Applies `f` to every element, side by side in a task for each element or one
after the other; the results stand in the order of the elements. -/
def gather
    {α β : Type} (sideBySide : Bool) (f : α → β) (xs : List α) : List β :=
  if sideBySide then (xs.map fun x => Task.spawn fun _ => f x).map (·.get)
  else xs.map f

namespace Comparison

/-- The unrounded scores of two files whose frequency tables are at hand. -/
def unrounded (a b : TokenizedFile) (f g : Frequency) : Comparison where
  fileA := a.id
  fileB := b.id
  cosine := f.cosine g
  jaccard := Resemblance.jaccard a.terms b.terms
  levenshtein := editRatio a.flat b.flat

def rounded (c : Comparison) (places : Nat) : Comparison :=
  { c with
    cosine := Decimal.roundTo c.cosine places
    jaccard := Decimal.roundTo c.jaccard places
    levenshtein := Decimal.roundTo c.levenshtein places }

def keep? (s : ComparisonSettings) (c : Comparison) : Option Comparison :=
  if c.maxScore < s.threshold then none else some (c.rounded s.precision)

inductive Failure where
  | tooFewFiles (found : Nat)
  | invalidSettings (fault : ComparisonSettings.Fault)
  deriving DecidableEq

def Failure.message : Failure → String
  | .tooFewFiles found =>
    s!"at least 2 valid files are required for comparison, found {found}"
  | .invalidSettings fault => "invalid compare config: " ++ fault.message

/-- The comparison of the files at two positions, if it is kept; there is none
outside. -/
def scorePair
    (s : ComparisonSettings) (files : Array TokenizedFile)
    (tables : Array Frequency) (i j : Nat) : Option Comparison := do
  keep? s (unrounded (← files[i]?) (← files[j]?) (← tables[i]?) (← tables[j]?))

/-- The kept comparisons of all pairs, in input order; each frequency table is
made once. -/
def retained
    (s : ComparisonSettings) (files : List TokenizedFile) : List Comparison :=
  let tables := (files.map (·.frequency)).toArray
  let scored := gather s.parallel
    (fun (i, j) => scorePair s files.toArray tables i j)
    (pairIndices files.length)
  scored.filterMap id

/-- Too few files are noticed before the settings are looked at. -/
def compareAll
    (s : ComparisonSettings) (files : List TokenizedFile) :
    Except Failure (List Comparison) :=
  if files.length < 2 then .error (.tooFewFiles files.length)
  else match s.fault? with
    | some fault => .error (.invalidSettings fault)
    | none => .ok (retained s files)

end Comparison

end Resemblance
