import Resemblance.Yaml.Lexeme
import Resemblance.Yaml.Scalar

/-!
# From text to lexemes

Only a colon shows that what stands before it is a key.  So the place of a
lexeme that may be one is kept, and the lexemes that announce a key, and perhaps
a mapping around it, are put there afterwards.
-/

namespace Resemblance.Yaml

/-- A lexeme that is a key if a colon follows it. -/
structure KeyPlace where
  /-- In its column nothing but a key may stand. -/
  required : Bool
  position : Nat
  start : Cursor

/-- A key stays on one line and within 1024 octets. -/
def KeyPlace.reaches (k : KeyPlace) (c : Cursor) : Bool :=
  c.line ≤ k.start.line && c.offset ≤ k.start.offset + 1024

structure Lexing where
  cursor : Cursor
  lexemes : Array Lexeme := #[]
  /-- The open blocks, innermost first, by the column one further than their
  own. -/
  floors : List Nat := []
  /-- A key or a block may begin at the next lexeme. -/
  mayKey : Bool := true
  key : Option KeyPlace := none
  /-- What may be a key outside of each open bracket, innermost first. -/
  outerKeys : List (Option KeyPlace) := []

namespace Lexing

def inFlow (s : Lexing) : Bool := !s.outerKeys.isEmpty

def floor (s : Lexing) : Nat := s.floors.headD 0

def put (s : Lexing) (l : Lexeme) : Lexing :=
  { s with lexemes := s.lexemes.push l }

def skipGaps (s : Lexing) : Lexing :=
  let (mayKey, cursor) := s.cursor.skipGaps s.inFlow s.mayKey
  { s with cursor, mayKey }

/-! ## Places of keys -/

/-- Gives up the place of a key, unless a key has to stand there. -/
def dropKey? (s : Lexing) : Option Lexing :=
  if s.key.any (·.required) then none else some { s with key := none }

/-- Gives up the place of a key that no colon can make one any more. -/
def dropLostKey? (s : Lexing) : Option Lexing :=
  if s.key.all (·.reaches s.cursor) then some s else s.dropKey?

/-- Remembers that the next lexeme may be a key, where one may stand. -/
def offerKey? (s : Lexing) : Option Lexing :=
  if s.mayKey then
    s.dropKey?.map fun s =>
      { s with key := some
                { required := !s.inFlow && s.floor == s.cursor.column + 1
                  position := s.lexemes.size
                  start := s.cursor } }
  else some s

/-! ## Blocks -/

def closeBlocks (s : Lexing) (floor : Nat) : Lexing :=
  if s.inFlow then s
  else
    let closed := s.floors.takeWhile (floor < ·)
    { s with
      floors := s.floors.dropWhile (floor < ·)
      lexemes := s.lexemes ++ closed.map fun _ => Lexeme.blockEnd }

/-- Opens a block at an earlier lexeme, if its column lies inside of all open
ones. -/
def openBlock (s : Lexing) (l : Lexeme) (column position : Nat) : Lexing :=
  if s.inFlow || column < s.floor then s
  else
    { s with
      floors := (column + 1) :: s.floors
      lexemes := s.lexemes.insertIdxIfInBounds position l }

/-! ## Signs -/

def sign (s : Lexing) (l : Lexeme) (mayKey : Bool) : Lexing :=
  { s.put l with cursor := s.cursor.advance, mayKey }

/-- Takes a sign that opens a block, if none is open in its column. -/
def blockSign?
    (s : Lexing) (block l : Lexeme) (mayKey : Bool) : Option Lexing :=
  if !s.inFlow && !s.mayKey then none
  else
    (s.openBlock block s.cursor.column s.lexemes.size).dropKey?.map fun s =>
      s.sign l mayKey

/-- A colon makes a key of the place that was kept; without one the key is empty
or stands behind a question mark. -/
def value? (s : Lexing) : Option Lexing :=
  match s.key with
  | some k =>
    let s :=
      { s with
        key := none
        lexemes := s.lexemes.insertIdxIfInBounds k.position .key }
    some
      ((s.openBlock .blockMapping k.start.column k.position).sign .value false)
  | none => s.blockSign? .blockMapping .value (!s.inFlow)

def openFlow? (s : Lexing) (l : Lexeme) : Option Lexing :=
  s.offerKey?.map fun s =>
    { s with key := none, outerKeys := s.key :: s.outerKeys }.sign l true

def closeFlow? (s : Lexing) (l : Lexeme) : Option Lexing :=
  s.dropKey?.map fun s =>
    let s := s.sign l false
    match s.outerKeys with
    | [] => s
    | key :: outerKeys => { s with key, outerKeys }

/-! ## Contents -/

def content?
    (s : Lexing) (read? : Cursor → Option (Lexeme × Cursor)) :
    Option Lexing := do
  let s ← s.offerKey?
  let (l, cursor) ← read? s.cursor
  return { s.put l with cursor, mayKey := false }

/-- What may stand directly behind the name of an anchor. -/
def endsName (c : Cursor) : Bool :=
  c.gapAt 0 || c.next?.any fun x => "?:,]\x7d%@\x60".toList.contains x

def anchorName? (c : Cursor) : Option (List Char × Cursor) :=
  let (name, behind) := c.advance.takeRun isNameChar
  if name.isEmpty || !endsName behind then none else some (name, behind)

/-- Behind the last line of a plain scalar another key may begin. -/
def plainScalar? (s : Lexing) : Option Lexing := do
  let s ← s.offerKey?
  let (t, broken, cursor) ← plain? s.inFlow s.floor s.cursor
  return { s.put (.scalar .plain t) with cursor, mayKey := broken }

def blockScalar? (s : Lexing) (style : Style) : Option Lexing := do
  let s ← s.dropKey?
  let (t, cursor) ← block? s.floor s.cursor
  return { s.put (.scalar style t) with cursor, mayKey := true }

/-- Takes what ends all blocks and any key. -/
def boundary?
    (s : Lexing) (read? : Cursor → Option (Lexeme × Cursor)) :
    Option Lexing := do
  let s ← (s.closeBlocks 0).dropKey?
  let (l, cursor) ← read? s.cursor
  return { s.put l with cursor, mayKey := false }

/-! ## Reading all -/

def step? (s : Lexing) : Option Lexing :=
  let c := s.cursor
  if c.column == 0 && c.next? == some '%' then
    s.boundary? fun c => (Directive.read? c).map fun (d, c) => (.directive d, c)
  else if c.atDocumentMark then
    s.boundary? fun c =>
      some
        (if c.next? == some '-' then .documentStart else .documentEnd,
          c.forward 3)
  else if c.atSign '-' then s.blockSign? .blockSequence .item true
  else match c.next? with
    | some '[' => s.openFlow? .sequenceStart
    | some '\x7b' => s.openFlow? .mappingStart
    | some ']' => s.closeFlow? .sequenceEnd
    | some '\x7d' => s.closeFlow? .mappingEnd
    | some ',' => s.dropKey?.map (·.sign .comma true)
    | some '*' =>
      s.content? fun c => (anchorName? c).map fun (name, c) => (.alias name, c)
    | some '&' =>
      s.content? fun c => (anchorName? c).map fun (name, c) => (.anchor name, c)
    | some '!' =>
      s.content? fun c => (tag? s.inFlow c).map fun (name, c) => (.tag name, c)
    | some '\'' | some '"' =>
      s.content? fun c => (quoted? c).map fun (t, c) => (.scalar .quoted t, c)
    | some x =>
      if x == '?' && (s.inFlow || c.gapAt 1) then
        s.blockSign? .blockMapping .key (!s.inFlow)
      else if x == ':' && (s.inFlow || c.gapAt 1) then s.value?
      else if x == '|' && !s.inFlow then s.blockScalar? .literal
      else if x == '>' && !s.inFlow then s.blockScalar? .folded
      else s.plainScalar?
    | none => none

/-- Takes all lexemes; every one but those that close blocks takes a character
at least. -/
def run? : Nat → Lexing → Option Lexing
  | 0, _ => none
  | fuel + 1, s => do
    let s ← s.skipGaps.dropLostKey?
    let s := s.closeBlocks (s.cursor.column + 1)
    if s.cursor.atEnd then (s.closeBlocks 0).dropKey? else run? fuel (← s.step?)

end Lexing

def Lexeme.ofText? (t : List Char) : Option (List Lexeme) :=
  (Lexing.run? (t.length + 1) { cursor := { rest := t } }).map
    (·.lexemes.toList)

end Resemblance.Yaml
