import Resemblance.Decimal.Reading
import Resemblance.Yaml.Tag

/-!
# Directives in YAML

A directive stands on a line of its own in front of a document.  It states the
version of the notation, or what the tags with a handle begin with.
-/

namespace Resemblance.Yaml

inductive Directive where
  | version (major minor : Nat)
  | handle (name : List Char) (start : Tag)
  deriving DecidableEq

namespace Directive

/-- A number of one to nine digits. -/
def number? (c : Cursor) : Option (Nat × Cursor) :=
  let (digits, behind) := c.takeRun Char.isDigit
  if digits.isEmpty || 9 < digits.length then none
  else some (Decimal.digitsToNat digits, behind)

def version? (c : Cursor) : Option (Directive × Cursor) := do
  let (major, c) ← number? c
  if c.next? != some '.' then none
  let (minor, c) ← number? c.advance
  return (.version major minor, c)

def handle? (c : Cursor) : Option (Directive × Cursor) := do
  if c.next? != some '!' then none
  let (name, c) := handleRun c
  if name.getLast? != some '!' || !c.next?.any isGap then none
  let (start, c) ← someTagText? true (c.skipRun isGap)
  if c.gapAt 0 then some (.handle name start, c) else none

def read? (c : Cursor) : Option (Directive × Cursor) := do
  let (name, c) := c.advance.takeRun isNameChar
  if !c.gapAt 0 then none
  let c := c.skipRun isGap
  let (d, c) ← match String.ofList name with
    | "YAML" => version? c
    | "TAG" => handle? c
    | _ => none
  return (d, ← c.lineEnd?)

def isKnownVersion : Directive → Bool
  | .version major minor => major == 1 && (minor == 1 || minor == 2)
  | .handle _ _ => true

/-- What a directive is about, which it may be alone. -/
def subject : Directive → List Char
  | .version _ _ => []
  | .handle name _ => name

/-- The handles that need no directive. -/
def commonHandles : List (List Char × Tag) :=
  [(['!'], Tag.bare), (['!', '!'], Tag.coreBase)]

/-- The meanings of all handles, if no directive repeats another or asks for a
version that is not known.  A directive hides the common meaning of its
handle. -/
def handles? (ds : List Directive) : Option (List (List Char × Tag)) :=
  let subjects := ds.map subject
  if subjects.eraseDups.length == subjects.length && ds.all isKnownVersion then
    let declared := ds.filterMap fun
      | .handle name start => some (name, start)
      | .version _ _ => none
    some (declared ++ commonHandles)
  else none

end Directive

end Resemblance.Yaml
