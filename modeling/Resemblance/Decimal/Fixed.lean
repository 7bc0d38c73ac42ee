import Resemblance.Decimal.Binary

/-!
# A fixed number of decimal places

The exact value of a double is rounded once to a whole number of units of the
last place, and a tie goes to the even neighbour.
-/

namespace Resemblance.Decimal

/-- The whole number nearest to `num / den`, a tie going to the even one. -/
def roundHalfEven (num den : Nat) : Nat :=
  let q := num / den
  let r := num % den
  if den < 2 * r then q + 1
  else if 2 * r = den then q + q % 2
  else q

/-- `mantissa * 2 ^ exponent` in units of `10 ^ (-places)`. -/
def unitsOf (mantissa : Nat) (exponent : Int) (places : Nat) : Nat :=
  roundHalfEven (mantissa * Nat.pow 10 places * Nat.pow 2 exponent.toNat)
    (Nat.pow 2 (-exponent).toNat)

/-- Writes `units` with a point before the last `places` digits, and a digit
before the point. -/
def pointed (units places : Nat) : List Char :=
  let digits := (Nat.toDigits 10 units).leftpad (places + 1) '0'
  if places = 0 then digits
  else digits.take (digits.length - places) ++ '.' ::
    digits.drop (digits.length - places)

def signed (negative : Bool) (t : List Char) : List Char :=
  if negative then '-' :: t else t

/-- A value that rounds to zero keeps its sign. -/
def Binary.fixed (places : Nat) : Binary → List Char
  | .notANumber => "NaN".toList
  | .infinite negative => signed negative "inf".toList
  | .finite negative m e =>
    signed negative (pointed (unitsOf m e places) places)

def fixed (places : Nat) (x : Float) : List Char :=
  (Binary.ofFloat x).fixed places

/-- The double nearest to what `fixed places x` shows. -/
def roundTo (x : Float) (places : Nat) : Float :=
  match Binary.ofFloat x with
  | .finite negative m e =>
    withSign negative (nearest (unitsOf m e places) (-(places : Int)))
  | _ => x

end Resemblance.Decimal
