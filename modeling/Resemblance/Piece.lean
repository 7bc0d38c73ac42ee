import Resemblance.Text.DecimalDigit
import Resemblance.Text.Pattern

/-!
# Pieces of source text

A text is cut into words, numbers and symbols by longest match from the left.
Words are ASCII identifiers, numbers are runs of decimal digits of any script,
and every other character is skipped.
-/

namespace Resemblance

inductive Piece where
  | word (text : List Char)
  | number (text : List Char)
  | symbol (text : List Char)
  deriving DecidableEq, Repr

namespace Piece

open Text

def text : Piece → List Char
  | word t | number t | symbol t => t

def isWordStart (c : Char) : Bool := c.isAlpha || c == '_'

def isWordPart (c : Char) : Bool := c.isAlphanum || c == '_'

def symbols : List Char := "=+-*/<>:.,()\x7b\x7d[];".toList

def isSymbol (c : Char) : Bool := symbols.contains c

/-- The length of the piece at the start of a text, zero where a character is
skipped. -/
def pattern : Pattern where
  matchLength
    | [] => 0
    | c :: rest =>
      if isWordStart c then 1 + (rest.takeWhile isWordPart).length
      else if isDecimalDigit c then 1 + (rest.takeWhile isDecimalDigit).length
      else if isSymbol c then 1
      else 0

/-- The first character of a piece tells its kind. -/
def ofText (t : List Char) : Piece :=
  match t with
  | [] => symbol []
  | c :: _ =>
    if isWordStart c then word t
    else if isDecimalDigit c then number t
    else symbol t

def lex (t : List Char) : List Piece := (pattern.findAll t).map ofText

end Piece

end Resemblance
