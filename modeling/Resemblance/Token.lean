import Resemblance.Text.Strings

/-!
# Tokens

A token is the normal form of one piece of a source text.  Reserved words carry
a tag in upper case and everything else is lowered, so that no identifier can
be taken for a tagged word.
-/

namespace Resemblance

structure Token where
  text : String
  deriving DecidableEq, Repr

namespace Token

def keywordTag : List Char := "KEYWORD_".toList

def keyword (word : String) : Token :=
  ⟨String.ofList (keywordTag ++ Text.uppercase word.toList)⟩

def ordinary (piece : String) : Token := ⟨Text.lowercased piece⟩

def isKeyword (t : Token) : Bool := keywordTag.isPrefixOf t.text.toList

/-- The tokens in one line with single spaces between them; empty ones in front
leave nothing. -/
def flatten (ts : List Token) : List Char :=
  [' '].intercalate ((ts.map (·.text.toList)).dropWhile (·.isEmpty))

/-- The tokens in the order of their code points. -/
def sort (ts : List Token) : List Token :=
  ts.mergeSort fun a b => decide (a.text ≤ b.text)

end Token

end Resemblance
