import Resemblance.Literal
import Resemblance.Piece
import Resemblance.Profile
import Resemblance.Text.Words
import Resemblance.Token

/-!
# Tokenizers

A tokenizer holds one profile for each language.  It strips comments, masks
string literals, collapses blanks, cuts the rest into pieces and tags the
reserved words among them.  No text is refused.
-/

namespace Resemblance

structure Tokenizer where
  profile : Language → Profile

namespace Tokenizer

def default : Tokenizer := ⟨Language.profile⟩

def withProfile (t : Tokenizer) (l : Language) (p : Profile) : Tokenizer :=
  ⟨fun m => if m = l then p else t.profile m⟩

def withKeywords (t : Tokenizer) (l : Language) (k : KeywordSet) : Tokenizer :=
  t.withProfile l { t.profile l with keywords := k }

/-- Both tokenizers have the same profile for every language. -/
def agrees (t u : Tokenizer) : Bool :=
  Language.all.all fun l => t.profile l == u.profile l

end Tokenizer

def Profile.classify (p : Profile) (piece : Piece) : Token :=
  let text := String.ofList piece.text
  if p.keywords.contains text then .keyword text else .ordinary text

/-- The text that is cut into pieces. -/
def Profile.canonical (p : Profile) (text : List Char) : List Char :=
  Text.collapse (Literal.mask (p.comments.strip text))

/-- A blank text is told apart before any pass. -/
def Profile.tokenize (p : Profile) (text : List Char) : List Token :=
  if (Text.trim text).isEmpty then []
  else (Piece.lex (p.canonical text)).map p.classify

def Tokenizer.tokenize
    (t : Tokenizer) (text : String) (l : Language) : List Token :=
  (t.profile l).tokenize text.toList

end Resemblance
