/-!
# Places in a YAML text

A cursor knows its line and its column, because blocks are told apart by their
indentation and a key has to stay on one line.
-/

namespace Resemblance.Yaml

/-- A line feed, or one of the two separators that keep their own form. -/
def isBreak (c : Char) : Bool := c == '\n' || c == '\u2028' || c == '\u2029'

def isGap (c : Char) : Bool := c == ' ' || c == '\t'

structure Cursor where
  rest : List Char
  /-- How many characters the whole text has, which bounds every walk through
  it. -/
  size : Nat := rest.length
  line : Nat := 0
  column : Nat := 0
  offset : Nat := 0
  deriving DecidableEq

namespace Cursor

def peek? (c : Cursor) (ahead : Nat) : Option Char := (c.rest.drop ahead).head?

def next? (c : Cursor) : Option Char := c.rest.head?

def atEnd (c : Cursor) : Bool := c.rest.isEmpty

/-- Nothing, a blank or a line break stands so far ahead. -/
def gapAt (c : Cursor) (ahead : Nat) : Bool :=
  (c.peek? ahead).all fun x => isGap x || isBreak x

def atSign (c : Cursor) (sign : Char) : Bool :=
  c.next? == some sign && c.gapAt 1

def advance (c : Cursor) : Cursor :=
  match c.rest with
  | [] => c
  | x :: rest =>
    let offset := c.offset + x.utf8Size
    if isBreak x then { c with rest, offset, line := c.line + 1, column := 0 }
    else { c with rest, offset, column := c.column + 1 }

def forward (c : Cursor) (n : Nat) : Cursor := n.repeat advance c

/-- The longest run of characters of one class, and the place behind it. -/
def takeRun (c : Cursor) (belongs : Char → Bool) : List Char × Cursor :=
  let taken := c.rest.takeWhile belongs
  (taken, c.forward taken.length)

def skipRun (c : Cursor) (belongs : Char → Bool) : Cursor :=
  (c.takeRun belongs).2

def skipComment (c : Cursor) : Cursor :=
  if c.next? == some '#' then c.skipRun fun x => !isBreak x else c

/-- Behind the end of a line on which nothing but a comment is left. -/
def lineEnd? (c : Cursor) : Option Cursor :=
  let c := (c.skipRun isGap).skipComment
  if c.next?.all isBreak then some c.advance else none

/-- A line of three dashes or three dots, perhaps with more behind a gap. -/
def atDocumentMark (c : Cursor) : Bool :=
  c.column == 0 &&
    (['-', '-', '-'].isPrefixOf c.rest || ['.', '.', '.'].isPrefixOf c.rest) &&
    c.gapAt 3

/-- Where the next lexeme begins, and whether a key may begin there: outside of
brackets it may once a new line is reached, and where it may, a tab is no
indentation. -/
def skipGaps (inFlow mayKey : Bool) (c : Cursor) : Bool × Cursor :=
  go c.size mayKey c
where
  go : Nat → Bool → Cursor → Bool × Cursor
    | 0, mayKey, c => (mayKey, c)
    | fuel + 1, mayKey, c =>
      let c :=
        if c.column == 0 && c.next? == some '\ufeff' then c.advance else c
      let c :=
        (c.skipRun fun x => x == ' ' ||
          (x == '\t' && (inFlow || !mayKey))).skipComment
      if c.next?.any isBreak then go fuel (mayKey || !inFlow) c.advance
      else (mayKey, c)

end Cursor

/-- All line ends but the two separators become line feeds. -/
def unifyBreaks : List Char → List Char
  | '\r' :: '\n' :: rest => '\n' :: unifyBreaks rest
  | c :: rest =>
    (if c == '\r' || c == '\u0085' then '\n' else c) :: unifyBreaks rest
  | [] => []

def isAllowed (c : Char) : Bool :=
  let n := c.toNat
  n == 0x09 || n == 0x0A || n == 0x0D || (0x20 ≤ n && n ≤ 0x7E) || n == 0x85 ||
    (0xA0 ≤ n && n ≤ 0xFFFD) || 0x10000 ≤ n

end Resemblance.Yaml
