import Resemblance.StringSet
import Resemblance.Text.Strings

/-!
# Reserved words

Reserved words are kept trimmed and lowered, and a word is looked up in lower
case, so that membership does not depend on case.
-/

namespace Resemblance

structure KeywordSet where
  words : StringSet
  deriving DecidableEq

namespace KeywordSet

def empty : KeywordSet := ⟨.empty⟩

/-- Words that are blank are left out. -/
def ofList (ws : List String) : KeywordSet :=
  ⟨.ofList
    ((ws.map fun w => Text.lowercased (Text.trimmed w)).filter (· != ""))⟩

/-- The vocabulary that every language shares unless it is given its own. -/
def general : KeywordSet :=
  ofList
    ["def", "class", "if", "else", "elif", "for", "while", "try", "except",
      "finally", "with", "import", "from", "return", "yield", "break",
      "continue", "pass", "and", "or", "not", "in", "is", "lambda"]

def contains (k : KeywordSet) (word : String) : Bool :=
  k.words.contains (Text.lowercased word)

def size (k : KeywordSet) : Nat := k.words.size

def sorted (k : KeywordSet) : List String := k.words.toList

end KeywordSet

end Resemblance
