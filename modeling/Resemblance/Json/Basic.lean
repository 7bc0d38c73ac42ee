import Resemblance.Decimal.Shortest

/-!
# JSON values

A number is kept as its literal, so that reading loses none of its digits.
Members of an object keep their order and may repeat a name.  A string may hold
half of a surrogate pair alone: it has its place in a document, but no text.
-/

namespace Resemblance

inductive Json where
  | null
  | bool (b : Bool)
  | number (literal : List Char)
  | string (s : String)
  | array (items : List Json)
  | object (members : List (String × Json))
  /-- A string without a text, or an object of which a member has such a
  name. -/
  | unspelled

namespace Json

open Decimal

/-- Digits with a point behind the first one, unless it is the only one. -/
def scientificDigits : List Char → List Char
  | [] => []
  | [d] => [d]
  | d :: rest => d :: '.' :: rest

/-- The shortest decimal, positional from `1e-5` up to `1e16` and with a signed
exponent beyond. -/
def magnitudeLiteral (m : Nat) (e : Int) : List Char :=
  let (digits, exponent) := shortest .toEven m e
  let written := Nat.toDigits 10 digits
  let leading := exponent + written.length - 1
  if digits = 0 ∨ (-5 ≤ leading ∧ leading < 16) then
    positional digits exponent ++ if 0 ≤ exponent then ['.', '0'] else []
  else
    scientificDigits written ++
      'e' :: (if leading < 0 then '-' else '+') ::
        Nat.toDigits 10 leading.natAbs

/-- The undefined number and the infinities have no literal. -/
def ofFloat (x : Float) : Json :=
  match Binary.ofFloat x with
  | .finite negative m e => .number (signed negative (magnitudeLiteral m e))
  | _ => .null

def ofNat (n : Nat) : Json := .number (Nat.toDigits 10 n)

end Json

end Resemblance
