import Resemblance.Decimal.Reading
import Resemblance.Document
import Resemblance.Yaml.Basic

/-!
# Taking values out of YAML

Any scalar can be a string.  A number, a truth value or null has no quotes; a
literal block can be a number or a truth value if its tag says so.
-/

namespace Resemblance.Yaml

open Decimal

def isNullWord (s : String) : Bool := ["null", "Null", "NULL", "~"].contains s

/-- A decimal or one of the names of infinity and the undefined number; what is
beyond the doubles is refused. -/
def wordFloat? (s : String) : Option Float :=
  let t := s.toList
  let unsigned := match t with
    | '+' :: rest => rest
    | _ => t
  if t.head? == some '+' &&
      unsigned.head?.any (fun c => c == '+' || c == '-') then
    none
  else if [".inf", ".Inf", ".INF"].contains (String.ofList unsigned) then
    some (1.0 / 0.0)
  else if ["-.inf", "-.Inf", "-.INF"].contains s then some (-1.0 / 0.0)
  else if [".nan", ".NaN", ".NAN"].contains s then some (0.0 / 0.0)
  else (Decimal.read? (String.ofList unsigned)).filter Float.isFinite

/-- Digits after a plus sign, in base sixteen, eight or two behind `0x`, `0o` or
`0b`; a decimal does not begin with a needless zero. -/
def wordNat? (s : String) : Option Nat :=
  let t := match s.toList with
    | '+' :: rest => rest
    | t => t
  let (base, digits) := match t with
    | '0' :: 'x' :: ds => (16, ds)
    | '0' :: 'o' :: ds => (8, ds)
    | '0' :: 'b' :: ds => (2, ds)
    | '0' :: _ :: _ => (10, [])
    | ds => (10, ds)
  if digits.isEmpty then none else Text.number? base digits

def wordBool? (s : String) : Option Bool :=
  if ["true", "True", "TRUE"].contains s then some true
  else if ["false", "False", "FALSE"].contains s then some false
  else none

namespace Place

/-- The text of a scalar that may be a value of one of the common kinds. -/
def word? (kind : String) (p : Place) : Option String :=
  match p.content with
  | .scalar .plain _ t => some t
  | .scalar .literal tag t =>
    if tag == some (Tag.core kind) then some t else none
  | _ => none

def text? (p : Place) : Option String :=
  match p.content with
  | .scalar _ _ t => some t
  | _ => none

def localName? (tag : Option Tag) : Option String :=
  match tag with
  | some (mark :: name) =>
    if [mark] == Tag.bare then Tag.toString? name else none
  | _ => none

/-- A local tag names a choice whose content is null; without one, the text is
the name. -/
def choice? (p : Place) : Option String :=
  match p.content with
  | .scalar style tag t =>
    match localName? tag with
    | some name =>
      if style = .plain && (t == "" || isNullWord t) then some name else none
    | none => some t
  | _ => none

def isNull? (p : Place) : Option Bool :=
  match p.content with
  | .scalar .plain none t => some (t == "" || isNullWord t)
  | .scalar .plain (some tag) t =>
    if tag == Tag.core "null" then if isNullWord t then some true else none
    else some false
  | _ => some false

/-- An empty place stands for an empty collection as well. -/
def items? (p : Place) : Option (List Place) :=
  match p.content with
  | .seq items => some (items.map p.visit)
  | .scalar .plain _ "" => some []
  | _ => none

def entries? (p : Place) : Option (List (Place × Place)) :=
  match p.content with
  | .map entries =>
    some (entries.map fun (key, value) => (p.visit key, p.visit value))
  | .scalar .plain _ "" => some []
  | _ => none

/-- The values of the named fields, of mappings whose keys are all texts. -/
def fields?
    (names : List String) (p : Place) : Option (List (Option Place)) := do
  let entries ← p.entries?
  let named ← entries.mapM fun (key, value) => key.text?.map fun name =>
    (name, value)
  names.mapM fun name =>
    match named.filter (·.1 == name) with
    | [] => some none
    | [(_, value)] => some (some value)
    | _ => none

instance : Document Place where
  float? p := (p.word? "float").bind wordFloat?
  nat? bits p := ((p.word? "int").bind wordNat?).filter (· < Nat.pow 2 bits)
  bool? p := (p.word? "bool").bind wordBool?
  string? := text?
  choice? := choice?
  isNull? := isNull?
  items? := items?
  entries? := entries?
  fields? := fields?

/-! ## References

How often aliases are followed while a value is read.
-/

def follows (p : Place) : Nat := if p.isAlias then 1 else 0

def followsInItems (each : Place → Nat) (p : Place) : Nat :=
  (p.items?.getD []).foldr (fun item n => each item + n) p.follows

def followsInEntries (each : Place → Nat) (p : Place) : Nat :=
  (p.entries?.getD []).foldr
    (fun (key, value) n => key.follows + each value + n) p.follows

/-- All keys are read, but of the values only those of known fields. -/
def followsInFields (each : List (String × (Place → Nat))) (p : Place) : Nat :=
  let ofValue (key value : Place) : Nat :=
    match key.text?.bind fun name => List.lookup name each with
    | some follows => follows value
    | none => 0
  (p.entries?.getD []).foldr
    (fun (key, value) n => key.follows + ofValue key value + n) p.follows

end Place

end Resemblance.Yaml
