import Resemblance.Text.DecimalDigit
import Resemblance.Text.LetterCase.Table

/-!
# Letter case

Full case mapping of a text: a letter may become several characters, and a
capital sigma becomes the final form where a word ends.
-/

namespace Resemblance.Text

open LetterCase

def isCased (c : Char) : Bool := inRanges casedRanges c

def isCaseIgnorable (c : Char) : Bool := inRanges caseIgnorableRanges c

def mapRows (rows : List Row) (c : Char) : Char :=
  (rows.findSome? (·.imageOf? c.toNat)).getD c

/-- The lower case of a letter that stands alone. -/
def lowerLetter (c : Char) : List Char :=
  if c.toNat < 0x80 then [c.toLower]
  else if c == '\u0130' then ['i', '\u0307']
  else [mapRows lowerRows c]

def upperLetter (c : Char) : List Char :=
  if c.toNat < 0x80 then [c.toUpper]
  else match upperExpansions.lookup c.toNat with
    | some codes => codes.map Char.ofNat
    | none => [mapRows upperRows c]

/-- The nearest character that case does not ignore is a cased letter. -/
def startsCased (t : List Char) : Bool :=
  (t.dropWhile isCaseIgnorable).head?.any isCased

/-- A sigma is final behind a letter of its word when none of its letters
follows. -/
def lowerSigma (before after : List Char) : Char :=
  if startsCased before && !startsCased after then 'ς' else 'σ'

/-- Lowers the rest of a text; `before` holds what precedes it, the nearest
character first. -/
def lowercaseFrom (before : List Char) : List Char → List Char
  | [] => []
  | c :: rest =>
    (if c == 'Σ' then [lowerSigma before rest] else lowerLetter c) ++
      lowercaseFrom (c :: before) rest

def lowercase (t : List Char) : List Char := lowercaseFrom [] t

def uppercase (t : List Char) : List Char := t.flatMap upperLetter

end Resemblance.Text
