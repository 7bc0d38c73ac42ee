import Resemblance.Decimal.Binary
import Resemblance.Text.Strings

/-!
# Reading decimals

A decimal is an optional sign, digits with at most one point among them, and an
optional exponent.  Infinity and the undefined number have names of their own.
-/

namespace Resemblance.Decimal

def digitsToNat (ds : List Char) : Nat :=
  ds.foldl (fun n d => 10 * n + (d.toNat - 48)) 0

/-- A sign in front, which is true for a minus, and the rest. -/
def splitSign : List Char → Bool × List Char
  | '-' :: rest => (true, rest)
  | '+' :: rest => (false, rest)
  | rest => (false, rest)

def readExponent? : List Char → Option Int
  | [] => some 0
  | c :: rest =>
    if c == 'e' || c == 'E' then
      let (negative, digits) := splitSign rest
      if digits.isEmpty || !digits.all Char.isDigit then none
      else
        some
          (if negative then -(digitsToNat digits : Int) else digitsToNat digits)
    else none

/-- An unsigned decimal; one side of the point may be empty. -/
def readMagnitude? (t : List Char) : Option Float :=
  let whole := t.takeWhile Char.isDigit
  let rest := t.dropWhile Char.isDigit
  let (fraction, rest) := match rest with
    | '.' :: r => (r.takeWhile Char.isDigit, r.dropWhile Char.isDigit)
    | r => ([], r)
  if whole.isEmpty && fraction.isEmpty then none
  else (readExponent? rest).map fun e =>
    nearest (digitsToNat (whole ++ fraction)) (e - fraction.length)

def read? (s : String) : Option Float :=
  let (negative, rest) := splitSign s.toList
  let magnitude := match String.ofList (rest.map Char.toLower) with
    | "inf" | "infinity" => some (1.0 / 0.0)
    | "nan" => some (0.0 / 0.0)
    | _ => readMagnitude? rest
  magnitude.map (withSign negative)

end Resemblance.Decimal
