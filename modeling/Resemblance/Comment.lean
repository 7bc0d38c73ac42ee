import Resemblance.Text.Pattern

/-!
# Comments

Comments are removed by passes over the whole text, blocks before lines.  A
string literal does not protect a comment marker inside it.
-/

namespace Resemblance

/-- How a language writes its comments. -/
inductive CommentStyle where
  | hash
  | cStyle
  | none
  deriving DecidableEq, Repr

namespace CommentStyle

open Text

def all : List CommentStyle := [hash, cStyle, none]

def name : CommentStyle → String
  | hash => "hash"
  | cStyle => "c_style"
  | none => "none"

def named? (s : String) : Option CommentStyle := all.find? (·.name == s)

theorem named?_name (s : CommentStyle) : named? s.name = some s := by
  cases s <;> decide

/-- Opener and closer of each kind of block, in the order of removal. -/
def blocks : CommentStyle → List (List Char × List Char)
  | hash =>
    [(['"', '"', '"'], ['"', '"', '"']),
      (['\'', '\'', '\''], ['\'', '\'', '\''])]
  | cStyle => [(['/', '*'], ['*', '/'])]
  | none => []

theorem delimiters_of_mem_blocks
    {s : CommentStyle} {o c : List Char}
    (h : (o, c) ∈ s.blocks) :
    o ≠ [] ∧ c ≠ [] ∧ '\n' ∉ o := by
  have hall : ∀ b ∈ s.blocks, b.1 ≠ [] ∧ b.2 ≠ [] ∧ '\n' ∉ b.1 := by
    cases s <;> decide
  exact hall (o, c) h

def lineMarker? : CommentStyle → Option (List Char)
  | hash => some ['#']
  | cStyle => some ['/', '/']
  | none => Option.none

theorem marker_of_lineMarker?
    {s : CommentStyle} {marker : List Char}
    (h : s.lineMarker? = some marker) :
    marker ≠ [] ∧ '\n' ∉ marker := by
  cases s with
  | hash =>
      obtain rfl := Option.some.inj h
      decide
  | cStyle =>
      obtain rfl := Option.some.inj h
      decide
  | none => cases h

def removeBlocks (s : CommentStyle) (text : List Char) : List Char :=
  Pattern.replaceEach (s.blocks.map fun (o, c) => .enclosed o c) [] text

def removeLines (s : CommentStyle) (text : List Char) : List Char :=
  match s.lineMarker? with
  | some marker => (Pattern.toLineEnd marker).replace [] text
  | Option.none => text

def strip (s : CommentStyle) (text : List Char) : List Char :=
  s.removeLines (s.removeBlocks text)

end CommentStyle

end Resemblance
