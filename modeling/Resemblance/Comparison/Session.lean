import Resemblance.Comparison.Run

/-!
# Observed comparisons

A session keeps every recorder that was ever installed.  A comparison that
succeeds is noted once, at the recorder that is active at that moment; a
comparison that fails leaves no trace.
-/

namespace Resemblance

/-- What a recorder is told about one comparison. -/
structure ComparisonEvent where
  files : Nat
  candidates : Nat
  retained : Nat
  deriving DecidableEq

structure Session where
  /-- The events of each recorder, in order of installation. -/
  recorders : List (List ComparisonEvent) := []
  /-- The position of the recorder that is told about comparisons. -/
  active : Option Nat := none

namespace Session

def install (s : Session) : Session where
  recorders := s.recorders ++ [[]]
  active := some s.recorders.length

def clear (s : Session) : Session := { s with active := none }

def record (s : Session) (e : ComparisonEvent) : Session :=
  match s.active with
  | some i => { s with recorders := s.recorders.modify i (· ++ [e]) }
  | none => s

def compare
    (s : Session) (settings : ComparisonSettings) (files : List TokenizedFile) :
    Except Comparison.Failure (List Comparison) × Session :=
  match Comparison.compareAll settings files with
  | .ok results =>
    (.ok results, s.record
      { files := files.length
        candidates := (pairIndices files.length).length
        retained := results.length })
  | .error failure => (.error failure, s)

end Session

end Resemblance
