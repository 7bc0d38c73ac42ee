/-!
# The numbers that doubles stand for

A finite double is a whole mantissa times a power of two.  Everything that
reads or writes decimals works on these two whole numbers, so no step of it
rounds except where it says so.
-/

namespace Resemblance.Decimal

inductive Binary where
  | notANumber
  | infinite (negative : Bool)
  | finite (negative : Bool) (mantissa : Nat) (exponent : Int)
  deriving DecidableEq, Repr

def Binary.ofFloat (x : Float) : Binary :=
  match x.toModel.unpack with
  | .notANumber => .notANumber
  | .infinity s => .infinite (s == .negative)
  | .zero s => .finite (s == .negative) 0 0
  | .finite s m e _ => .finite (s == .negative) m e

/-- The double nearest to a whole number, ties to even. -/
def nearestNat (n : Nat) : Float := .ofModel (.ofNat n)

/-- The double nearest to `digits * 10 ^ exponent`, ties to even. -/
def nearest (digits : Nat) (exponent : Int) : Float :=
  .ofModel (.ofScientific digits exponent)

def withSign (negative : Bool) (x : Float) : Float := if negative then -x else x

end Resemblance.Decimal
