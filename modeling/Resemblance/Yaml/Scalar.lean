import Resemblance.Text.Digits
import Resemblance.Yaml.Cursor

/-!
# Scalars in YAML

Line breaks inside a scalar are folded: a single one becomes a space, and of
several the first is dropped.  Only a literal block keeps its lines.  What is
read so far is kept with its latest character first.
-/

namespace Resemblance.Yaml

/-- The blanks and breaks between two words of a scalar, the latest first. -/
structure Gap where
  blanks : List Char := []
  /-- A line was left, be it at a break or at one that a backslash took away. -/
  broken : Bool := false
  first : Option Char := none
  more : List Char := []

/-- What stands for a gap, its last character first. -/
def Gap.folded (g : Gap) : List Char :=
  if g.broken then
    match g.first with
    | some '\n' => if g.more.isEmpty then [' '] else g.more
    | first => g.more ++ first.toList
  else g.blanks

/-- Passes a gap.  A tab that stands in front of the column `floor` of a line is
refused. -/
def passGap? (floor : Nat) : Nat → Gap → Cursor → Option (Gap × Cursor)
  | 0, _, _ => none
  | fuel + 1, g, c =>
    match c.next? with
    | none => some (g, c)
    | some x =>
      if isGap x then
        if g.broken then
          if x == '\t' && c.column < floor then none
          else passGap? floor fuel g c.advance
        else passGap? floor fuel { g with blanks := x :: g.blanks } c.advance
      else if isBreak x then
        if g.broken then
          passGap? floor fuel { g with more := x :: g.more } c.advance
        else
          passGap? floor fuel { g with broken := true, first := some x }
            c.advance
      else some (g, c)

/-! ## Plain scalars -/

def isFlowSign (c : Char) : Bool :=
  c == ',' || c == '[' || c == ']' || c == '\x7b' || c == '\x7d'

/-- A plain word ends at a gap, before a colon with a gap behind it, and at a
sign of the flow. -/
def plainWordEnds (inFlow : Bool) (c : Cursor) : Bool :=
  c.gapAt 0 || c.atSign ':' || (inFlow && c.next?.any isFlowSign)

/-- One word of a plain scalar.  In a flow a colon may not touch a sign of the
flow. -/
def plainWord? (inFlow : Bool) :
    Nat → List Char → Cursor → Option (List Char × Cursor)
  | 0, _, _ => none
  | fuel + 1, word, c =>
    if inFlow && c.next? == some ':' &&
        (c.peek? 1).any fun x => isFlowSign x || x == '?' then
      none
    else if plainWordEnds inFlow c then some (word, c)
    else match c.next? with
      | some x => plainWord? inFlow fuel (x :: word) c.advance
      | none => some (word, c)

/-- The rest of a plain scalar, behind the gap in front of its next word; each
line of it reaches the column `floor` outside of a flow.  The answer tells
whether a line was left at the end. -/
def plainRest?
    (inFlow : Bool) (floor : Nat) :
    Nat → List Char → Gap → Cursor → Option (List Char × Bool × Cursor)
  | 0, _, _, _ => none
  | fuel + 1, done, gap, c => do
    if c.atDocumentMark || c.next? == some '#' then return (done, gap.broken, c)
    let (word, behind) ← plainWord? inFlow (fuel + 1) [] c
    if word.isEmpty then return (done, gap.broken, behind)
    let done := word ++ gap.folded ++ done
    if behind.atEnd || !behind.gapAt 0 then return (done, false, behind)
    let (gap, further) ← passGap? floor (fuel + 1) {} behind
    if !inFlow && further.column < floor then return (done, gap.broken, further)
    plainRest? inFlow floor fuel done gap further

def startsPlain (inFlow : Bool) (c : Cursor) : Bool :=
  match c.next? with
  | none => false
  | some '-' => !(c.peek? 1).any isGap
  | some x =>
    if x == '?' || x == ':' then !inFlow && !c.gapAt 1
    else
      !(isGap x || isBreak x || isFlowSign x ||
        "#&*!|>'\"%@\x60".toList.contains x)

/-- A plain scalar and the gap behind it, with whether a line was left in that
gap. -/
def plain?
    (inFlow : Bool) (floor : Nat) (c : Cursor) :
    Option (List Char × Bool × Cursor) := do
  if !startsPlain inFlow c then none
  let (done, broken, c) ← plainRest? inFlow floor (c.size + 2) [] {} c
  return (done.reverse, broken, c)

/-! ## Scalars in quotes -/

def singleRest? : Nat → List Char → Cursor → Option (List Char × Cursor)
  | 0, _, _ => none
  | fuel + 1, done, c =>
    if c.atDocumentMark then none
    else match c.next? with
      | none => none
      | some '\'' =>
        if c.peek? 1 == some '\'' then
          singleRest? fuel ('\'' :: done) (c.forward 2)
        else some (done.reverse, c.advance)
      | some x =>
        if isGap x || isBreak x then do
          let (g, c) ← passGap? 0 (fuel + 1) {} c
          singleRest? fuel (g.folded ++ done) c
        else singleRest? fuel (x :: done) c.advance

def escapedChar? : Char → Option Char
  | '0' => some '\x00'
  | 'a' => some '\x07'
  | 'b' => some '\x08'
  | 't' | '\t' => some '\t'
  | 'n' => some '\n'
  | 'v' => some '\x0b'
  | 'f' => some '\x0c'
  | 'r' => some '\r'
  | 'e' => some '\x1b'
  | ' ' => some ' '
  | '"' => some '"'
  | '/' => some '/'
  | '\\' => some '\\'
  | 'N' => some '\u0085'
  | '_' => some '\u00a0'
  | 'L' => some '\u2028'
  | 'P' => some '\u2029'
  | _ => none

def escapeWidth? : Char → Option Nat
  | 'x' => some 2
  | 'u' => some 4
  | 'U' => some 8
  | _ => none

def codePoint? (n : Nat) : Option Char :=
  if n.isValidChar then some (Char.ofNat n) else none

def escape? (c : Cursor) : Option (Char × Cursor) := do
  let letter ← c.next?
  match escapeWidth? letter with
  | some width =>
    let digits := (c.rest.drop 1).take width
    if digits.length < width then none
    let x ← (Text.number? 16 digits).bind codePoint?
    return (x, c.forward (width + 1))
  | none => return (← escapedChar? letter, c.advance)

/-- Behind the opening quote of a scalar in double quotes.  A backslash takes a
line break away. -/
def doubleRest? : Nat → List Char → Cursor → Option (List Char × Cursor)
  | 0, _, _ => none
  | fuel + 1, done, c =>
    if c.atDocumentMark then none
    else match c.next? with
      | none => none
      | some '"' => some (done.reverse, c.advance)
      | some '\\' =>
        if (c.peek? 1).any isBreak then do
          let (g, c) ← passGap? 0 (fuel + 1) { broken := true } (c.forward 2)
          doubleRest? fuel (g.folded ++ done) c
        else do
          let (x, c) ← escape? c.advance
          doubleRest? fuel (x :: done) c
      | some x =>
        if isGap x || isBreak x then do
          let (g, c) ← passGap? 0 (fuel + 1) {} c
          doubleRest? fuel (g.folded ++ done) c
        else doubleRest? fuel (x :: done) c.advance

def quoted? (c : Cursor) : Option (List Char × Cursor) :=
  let fuel := c.size + 2
  match c.next? with
  | some '\'' => singleRest? fuel [] c.advance
  | some '"' => doubleRest? fuel [] c.advance
  | _ => none

/-! ## Blocks of lines -/

inductive Chomping where
  | strip
  | clip
  | keep
  deriving DecidableEq

structure BlockHeader where
  chomping : Chomping := .clip
  indent : Option Nat := none

/-- The signs behind the bar or the angle: at most one for the end and one
digit. -/
def blockHeader? : Nat → Bool → BlockHeader → Cursor →
    Option (BlockHeader × Cursor)
  | 0, _, h, c => some (h, c)
  | fuel + 1, chomped, h, c =>
    match c.next? with
    | some '+' =>
      if chomped then none
      else blockHeader? fuel true { h with chomping := .keep } c.advance
    | some '-' =>
      if chomped then none
      else blockHeader? fuel true { h with chomping := .strip } c.advance
    | some x =>
      if x.isDigit then
        if x == '0' || h.indent.isSome then none
        else
          blockHeader? fuel chomped { h with indent := some (x.toNat - 48) }
            c.advance
      else some (h, c)
    | none => some (h, c)

/-- Passes empty lines and the indentation in front of the next one.  Without a
known indentation the widest one is reported; a tab may not stand in place of
it. -/
def passBlockBreaks? (indent : Option Nat) :
    Nat → Nat → List Char → Cursor → Option (Nat × List Char × Cursor)
  | 0, _, _, _ => none
  | fuel + 1, widest, breaks, c =>
    let spaces := (c.rest.takeWhile (· == ' ')).length
    let c := c.forward (match indent with
      | some n => min spaces (n - c.column)
      | none => spaces)
    let widest := max widest c.column
    if c.next? == some '\t' && indent.all (c.column < ·) then none
    else match c.next? with
      | some x =>
        if isBreak x then
          passBlockBreaks? indent fuel widest (x :: breaks) c.advance
        else some (widest, breaks, c)
      | none => some (widest, breaks, c)

/-- The lines of a block; `lineEnd` is the break behind the last one, `breaks`
are empty lines. -/
def blockLines?
    (literal : Bool) (indent : Nat) :
    Nat → List Char → Option Char → List Char → Bool → Cursor →
      Option (List Char × Option Char × List Char × Cursor)
  | 0, _, _, _, _, _ => none
  | fuel + 1, done, lineEnd, breaks, indented, c => do
    if c.column != indent || c.atEnd then return (done, lineEnd, breaks, c)
    let moreIndented := c.next?.any isGap
    let joint :=
      if !literal && lineEnd == some '\n' && !indented && !moreIndented then
        if breaks.isEmpty then [' '] else breaks
      else breaks ++ lineEnd.toList
    let (line, behind) := c.takeRun fun x => !isBreak x
    let done := line.reverse ++ joint ++ done
    let lineEnd := behind.next?
    let (_, breaks, c) ←
      passBlockBreaks? (some indent) (fuel + 1) 0 [] behind.advance
    blockLines? literal indent fuel done lineEnd breaks moreIndented c

/-- A literal or folded block, whose lines are indented to the column `floor` at
least. -/
def block? (floor : Nat) (c : Cursor) : Option (List Char × Cursor) := do
  let literal := c.next? == some '|'
  let (header, c) ← blockHeader? 3 false {} c.advance
  let c ← c.lineEnd?
  let fuel := c.size + 2
  let (indent, breaks, c) ← match header.indent with
    | some n =>
      let indent := if 0 < floor then floor - 1 + n else n
      let (_, breaks, c) ← passBlockBreaks? (some indent) fuel 0 [] c
      pure (indent, breaks, c)
    | none =>
      let (widest, breaks, c) ← passBlockBreaks? none fuel 0 [] c
      pure (max (max widest floor) 1, breaks, c)
  let (done, lineEnd, breaks, c) ←
    blockLines? literal indent fuel [] none breaks false c
  let tail := match header.chomping with
    | .strip => []
    | .clip => lineEnd.toList
    | .keep => breaks ++ lineEnd.toList
  return ((tail ++ done).reverse, c)

end Resemblance.Yaml
