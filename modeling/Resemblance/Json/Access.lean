import Resemblance.Decimal.Reading
import Resemblance.Document
import Resemblance.Json.Basic

/-!
# Taking values out of JSON

A literal is read through its leading digits that fit into 64 bits.  They are
scaled by powers of ten with one rounding each, so a long literal may end one
step beside the nearest double.
-/

namespace Resemblance.Json

open Decimal

/-- The digits read so far and the power of ten that they still lack. -/
structure Significand where
  value : Nat
  exponent : Int
  full : Bool

/-- Takes one more digit, as long as the digits fit; a dropped one of the whole
part is counted. -/
def Significand.take
    (inWhole : Bool) (s : Significand) (d : Char) : Significand :=
  let value := 10 * s.value + (d.toNat - 48)
  if s.full || Nat.pow 2 64 ≤ value then
    { s with
      full := true
      exponent := if inWhole then s.exponent + 1 else s.exponent }
  else
    { s with value, exponent := if inWhole then s.exponent else s.exponent - 1 }

/-- Scales by a power of ten, in steps of at most `1e308`; a result beyond the
doubles is none. -/
def scale? (x : Float) (exponent : Int) : Option Float :=
  if 308 < exponent then if x == 0.0 then some x else none
  else if 0 ≤ exponent then
    let y := x * nearest 1 exponent
    if y.isInf then none else some y
  else
    let steps := min 3 ((-exponent - 1).toNat / 308)
    let y := steps.repeat (· / nearest 1 308) x
    let left := -exponent - 308 * steps
    if 308 < left then some 0.0 else some (y / nearest 1 left)

def literalFloat? (literal : List Char) : Option Float :=
  let (negative, t) := splitSign literal
  let whole := t.takeWhile Char.isDigit
  let rest := t.dropWhile Char.isDigit
  let (fraction, rest) := match rest with
    | '.' :: r => (r.takeWhile Char.isDigit, r.dropWhile Char.isDigit)
    | r => ([], r)
  let s := whole.foldl (Significand.take true) ⟨0, 0, false⟩
  let s := fraction.foldl (Significand.take false) { s with full := false }
  (readExponent? rest).bind fun e =>
    (scale? (nearestNat s.value) (s.exponent + e)).map (withSign negative)

/-- A literal of digits alone that fits into `bits` bits. -/
def literalNat? (bits : Nat) (literal : List Char) : Option Nat :=
  if literal.isEmpty || !literal.all Char.isDigit then none
  else
    let n := digitsToNat literal
    if n < Nat.pow 2 bits then some n else none

/-- The values of the named fields; an array gives the fields in their order. -/
def fields? (names : List String) : Json → Option (List (Option Json))
  | .object members =>
    names.mapM fun name =>
      match members.filter (·.1 == name) with
      | [] => some none
      | [(_, value)] => some (some value)
      | _ => none
  | .array items =>
    if items.length ≤ names.length then
      some (items.map some ++ List.replicate (names.length - items.length) none)
    else none
  | _ => none

instance : Document Json where
  float?
    | .number literal => literalFloat? literal
    | _ => none
  nat? bits
    | .number literal => literalNat? bits literal
    | _ => none
  bool?
    | .bool b => some b
    | _ => none
  string?
    | .string s => some s
    | _ => none
  choice?
    | .string s => some s
    | .object [(name, .null)] => some name
    | _ => none
  isNull?
    | .null => some true
    | _ => some false
  items?
    | .array items => some items
    | _ => none
  entries?
    | .object members =>
      some (members.map fun (name, value) => (.string name, value))
    | _ => none
  fields? := fields?

end Resemblance.Json
