import Resemblance.Text.Digits
import Resemblance.Yaml.Cursor

/-!
# Tags in YAML

A tag is written in full between angles, or as a handle and the rest.  It is a
string of octets, because an escape in it stands for one octet.
-/

namespace Resemblance.Yaml

abbrev Tag := List UInt8

namespace Tag

def ofChars (t : List Char) : Tag := t.map fun c => c.toNat.toUInt8

def toString? (t : Tag) : Option String := String.fromUTF8? ⟨t.toArray⟩

/-- What the tags of the common kinds of scalars begin with. -/
def coreBase : Tag := ofChars "tag:yaml.org,2002:".toList

def core (kind : String) : Tag := coreBase ++ ofChars kind.toList

/-- The tag that names no kind. -/
def bare : Tag := ofChars ['!']

end Tag

/-- A handle and what follows it.  A tag in full has an empty handle. -/
structure TagName where
  handle : List Char
  rest : Tag
  deriving DecidableEq

def isNameChar (c : Char) : Bool := c.isAlphanum || c == '_' || c == '-'

/-- The characters of a tag; a full one may also hold brackets and commas. -/
def isTagChar (inFull : Bool) (c : Char) : Bool :=
  isNameChar c || ";/?:@&=+$.!~*'()".toList.contains c ||
    (inFull && ",[]".toList.contains c)

def escapedOctet? (c : Cursor) : Option (UInt8 × Cursor) :=
  match c.rest with
  | '%' :: high :: low :: _ =>
    (Text.number? 16 [high, low]).map fun n => (n.toUInt8, c.forward 3)
  | _ => none

/-- How many octets follow the leading one of a character. -/
def trailingOctets? (lead : UInt8) : Option Nat :=
  let n := lead.toNat
  if n < 0x80 then some 0
  else if 0xC0 ≤ n && n < 0xE0 then some 1
  else if 0xE0 ≤ n && n < 0xF0 then some 2
  else if 0xF0 ≤ n && n < 0xF8 then some 3
  else none

def takeTrailing? : Nat → Tag → Cursor → Option (Tag × Cursor)
  | 0, done, c => some (done, c)
  | n + 1, done, c => do
    let (octet, c) ← escapedOctet? c
    if octet.toNat < 0x80 || 0xC0 ≤ octet.toNat then none
    takeTrailing? n (octet :: done) c

/-- The longest run of characters of a tag.  Escapes come as many as a character
has octets. -/
def tagRun? (inFull : Bool) : Nat → Tag → Cursor → Option (Tag × Cursor)
  | 0, _, _ => none
  | fuel + 1, done, c =>
    match c.next? with
    | some '%' => do
      let (lead, c) ← escapedOctet? c
      let (done, c) ← takeTrailing? (← trailingOctets? lead) (lead :: done) c
      tagRun? inFull fuel done c
    | some x =>
      if isTagChar inFull x then
        tagRun? inFull fuel (x.toNat.toUInt8 :: done) c.advance
      else some (done.reverse, c)
    | none => some (done.reverse, c)

/-- The text of a tag, which an octet of zero cuts short. -/
def tagText? (inFull : Bool) (c : Cursor) : Option (Tag × Cursor) := do
  let (t, behind) ← tagRun? inFull (c.size + 1) [] c
  return (t.takeWhile (· != 0), behind)

def someTagText? (inFull : Bool) (c : Cursor) : Option (Tag × Cursor) := do
  let (t, behind) ← tagText? inFull c
  if behind.offset == c.offset then none else some (t, behind)

/-- A handle stands between two exclamation marks, or is the first of them
alone. -/
def handleRun (c : Cursor) : List Char × Cursor :=
  let (name, behind) := c.advance.takeRun isNameChar
  if behind.next? == some '!' then ('!' :: name ++ ['!'], behind.advance)
  else ('!' :: name, behind)

def tagName? (c : Cursor) : Option (TagName × Cursor) := do
  if c.peek? 1 == some '<' then
    let (rest, c) ← someTagText? true (c.forward 2)
    if c.next? == some '>' then some (⟨[], rest⟩, c.advance) else none
  else
    let (handle, behind) := handleRun c
    if 1 < handle.length && handle.getLast? == some '!' then
      let (rest, c) ← someTagText? false behind
      return (⟨handle, rest⟩, c)
    else
      let (more, c) ← tagText? false behind
      let rest := Tag.ofChars (handle.drop 1) ++ more
      return (if rest.isEmpty then ⟨[], Tag.bare⟩ else ⟨['!'], rest⟩, c)

/-- A tag ends at a gap, and inside brackets also at a comma. -/
def tag? (inFlow : Bool) (c : Cursor) : Option (TagName × Cursor) := do
  let (name, c) ← tagName? c
  if c.gapAt 0 || (inFlow && c.next? == some ',') then some (name, c) else none

end Resemblance.Yaml
