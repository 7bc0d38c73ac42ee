import Resemblance.Decimal.Shortest

/-!
# Settings of a comparison
-/

namespace Resemblance

structure ComparisonSettings where
  version : Nat := 1
  /-- A pair is kept when its largest score reaches the threshold. -/
  threshold : Float := 0.0
  /-- Decimal places of a stored score. -/
  precision : Nat := 4
  /-- Scoring pairs side by side changes no result. -/
  parallel : Bool := false

namespace ComparisonSettings

inductive Fault where
  | version
  | threshold (value : Float)
  | precision (places : Nat)
  deriving DecidableEq

def Fault.message : Fault → String
  | .version => "version must be >= 1"
  | .threshold x =>
    "threshold must be between 0.0 and 1.0, got " ++
      String.ofList (Decimal.plain x)
  | .precision p => s!"precision must be <= 10, got {p}"

/-- The undefined number lies in no interval. -/
def inUnit (x : Float) : Bool := 0.0 ≤ x && x ≤ 1.0

/-- The first fault in the order of the fields. -/
def fault? (s : ComparisonSettings) : Option Fault :=
  if s.version = 0 then some .version
  else if !inUnit s.threshold then some (.threshold s.threshold)
  else if 10 < s.precision then some (.precision s.precision)
  else none

end ComparisonSettings

end Resemblance
