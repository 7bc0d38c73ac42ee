/-!
# Digits in a base

Digits beyond nine are letters of ASCII in either case.
-/

namespace Resemblance.Text

def digitValue? (base : Nat) (c : Char) : Option Nat :=
  let value? :=
    if c.isDigit then some (c.toNat - 48)
    else if 'a' ≤ c && c ≤ 'f' then some (c.toNat - 87)
    else if 'A' ≤ c && c ≤ 'F' then some (c.toNat - 55)
    else none
  value?.filter (· < base)

/-- The number that the digits write, with zero for no digits at all. -/
def number? (base : Nat) (ds : List Char) : Option Nat :=
  ds.foldlM (fun n d => (digitValue? base d).map (base * n + ·)) 0

end Resemblance.Text
