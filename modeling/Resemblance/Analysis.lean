import Resemblance.Settings
import Resemblance.Source
import Resemblance.Statistics

/-!
# Analyses

An analysis accounts for every source once: as a file that was compared or as
an exclusion with its reason.
-/

namespace Resemblance

structure FileSummary where
  id : String
  name : String
  language : Language
  tokenCount : Nat
  deriving DecidableEq

structure Exclusion where
  id : String
  reason : String
  deriving DecidableEq

structure Analysis where
  files : List FileSummary
  excluded : List Exclusion
  results : List Comparison
  statistics : Option Statistics

def TokenizedFile.summary (f : TokenizedFile) : FileSummary where
  id := f.id
  name := Path.displayName f.id
  language := f.language
  tokenCount := f.tokens.length

def Source.tokenized (t : Tokenizer) (s : Source) : TokenizedFile where
  id := s.id
  language := s.language
  tokens := t.tokenize s.text s.language

namespace Analysis

/-- The number of pairs before any was dropped. -/
def candidatePairs (a : Analysis) : Nat := pairCount a.files.length

def noTokens : String := "no tokens could be extracted"

/-- Compares the sources that have tokens; `refused` are the exclusions made
before. -/
def ofSources
    (t : Tokenizer) (s : ComparisonSettings) (refused : List Exclusion)
    (sources : List Source) : Except Comparison.Failure Analysis := do
  let tokenized := sources.map (·.tokenized t)
  let files := tokenized.filter (!·.tokens.isEmpty)
  let blank := tokenized.filter (·.tokens.isEmpty)
  let results ← Comparison.compareAll s files
  return {
    files := files.map (·.summary)
    excluded := refused ++ blank.map fun f => ⟨f.id, noTokens⟩
    results
    statistics := Statistics.aggregate results }

inductive Failure where
  | settings (fault : Settings.Fault)
  | comparison (failure : Comparison.Failure)
  deriving DecidableEq

/-- A failure and what caused it, the outermost first. -/
def Failure.messages : Failure → List String
  | .settings fault => ["configuration error: " ++ fault.message, fault.message]
  | .comparison failure =>
    ["comparison failed: " ++ failure.message, failure.message]

def loadOrExclude (d : Disk) (path : String) : Except Exclusion Source :=
  (Source.load d path).mapError fun r => ⟨path, r.message path⟩

def loaded (d : Disk) (paths : List String) : List Source :=
  paths.filterMap fun p => (loadOrExclude d p).toOption

def refused (d : Disk) (paths : List String) : List Exclusion :=
  paths.filterMap fun p =>
    match loadOrExclude d p with
    | .error e => some e
    | .ok _ => none

/-- The settings are checked before any path is looked at. -/
def ofPaths
    (d : Disk) (s : Settings) (paths : List String) : Except Failure Analysis :=
  match s.fault? with
  | some fault => .error (.settings fault)
  | none =>
    (ofSources s.tokenizer s.comparison (refused d paths)
      (loaded d paths)).mapError .comparison

end Analysis

end Resemblance
