import Resemblance.Decimal.Fixed

/-!
# The fewest digits that read back

The decimals that read back as a given double form an interval around it.  The
grids of multiples of a power of ten are tried from the coarsest on, and the
first grid with a point in the interval gives the digits.
-/

namespace Resemblance.Decimal

/-- The value of `m * 2 ^ e` and the ends of its rounding interval over one
denominator. -/
structure Bracket where
  low : Nat
  value : Nat
  high : Nat
  den : Nat
  /-- The ends themselves round to the value. -/
  closed : Bool

/-- Below a power of two the neighbouring double is half as far as above it. -/
def Bracket.ofBinary (m : Nat) (e : Int) : Bracket :=
  let scale := Nat.pow 2 (e - 2).toNat
  let below := if m = Nat.pow 2 52 ∧ -1074 < e then 1 else 2
  { low := (4 * m - below) * scale
    value := 4 * m * scale
    high := (4 * m + 2) * scale
    den := Nat.pow 2 (2 - e).toNat
    closed := m % 2 == 0 }

/-- Measures everything in units of `10 ^ power`. -/
def Bracket.onGrid (b : Bracket) (power : Int) : Bracket :=
  let scale := Nat.pow 10 (-power).toNat
  { b with
    low := b.low * scale
    value := b.value * scale
    high := b.high * scale
    den := b.den * Nat.pow 10 power.toNat }

def Bracket.holds (b : Bracket) (n : Nat) : Bool :=
  if b.closed then b.low ≤ n * b.den && n * b.den ≤ b.high
  else b.low < n * b.den && n * b.den < b.high

/-- Where two decimals are equally near, which one is written. -/
inductive Tie where
  | toEven
  | upward
  deriving DecidableEq

/-- The whole number of the grid in the interval, the nearer one of two. -/
def Bracket.pick? (tie : Tie) (b : Bracket) : Option Nat :=
  let n := b.value / b.den
  let r := b.value % b.den
  match b.holds n, b.holds (n + 1) with
  | false, false => none
  | true, false => some n
  | false, true => some (n + 1)
  | true, true =>
    if 2 * r < b.den then some n
    else if b.den < 2 * r then some (n + 1)
    else match tie with
      | .upward => some (n + 1)
      | .toEven => some (n + n % 2)

/-- Tries the grids from `10 ^ power` downward. -/
def searchGrids (tie : Tie) (b : Bracket) : Nat → Int → Nat × Int
  | 0, power => (b.value / b.den, power)
  | fuel + 1, power =>
    match (b.onGrid power).pick? tie with
    | some n => (n, power)
    | none => searchGrids tie b fuel (power - 1)

/-- A power of ten above `m * 2 ^ e`, at most two powers too large. -/
def powerAbove (m : Nat) (e : Int) : Int :=
  (((m.log2 : Int) + 1 + e) * 30103).fdiv 100000 + 1

/-- Digits and exponent of the shortest decimal; seventeen digits always
suffice. -/
def shortest (tie : Tie) (m : Nat) (e : Int) : Nat × Int :=
  if m = 0 then (0, 0) else searchGrids tie (.ofBinary m e) 20 (powerAbove m e)

/-- Writes `digits * 10 ^ exponent` without an exponent. -/
def positional (digits : Nat) (exponent : Int) : List Char :=
  if 0 ≤ exponent then Nat.toDigits 10 (digits * Nat.pow 10 exponent.toNat)
  else pointed digits (-exponent).toNat

/-- The shortest decimal, never with an exponent and without a point where it is
whole. -/
def plain (x : Float) : List Char :=
  match Binary.ofFloat x with
  | .notANumber => "NaN".toList
  | .infinite negative => signed negative "inf".toList
  | .finite negative m e =>
    let (digits, exponent) := shortest .upward m e
    signed negative (positional digits exponent)

end Resemblance.Decimal
