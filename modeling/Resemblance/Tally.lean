import Resemblance.Frequency
import Std.Data.HashMap

/-!
# Tallies

A tally is the frequency table of a sequence together with the length of the
sequence.  The counts can also be had alone, under keys that are made from the
terms and do not need the sequence any more.
-/

namespace Resemblance

structure Tally where
  frequency : Frequency
  /-- The number of terms, whatever their frequencies. -/
  total : Nat
  deriving DecidableEq

def Tally.ofTerms (ws : List String) : Tally := ⟨.ofTerms ws, ws.length⟩

/-- The number of terms for each key. -/
def keyCounts
    {κ : Type} [BEq κ] [Hashable κ] (key : String → κ) (ws : List String) :
    Std.HashMap κ Nat :=
  ws.foldl (fun counts w => counts.alter (key w) fun n => some (n.getD 0 + 1)) ∅

end Resemblance
