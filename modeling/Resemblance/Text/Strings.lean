import Resemblance.Text.Blank
import Resemblance.Text.LetterCase

/-!
# Normal forms of whole strings
-/

namespace Resemblance.Text

def trimmed (s : String) : String := String.ofList (trim s.toList)

def lowercased (s : String) : String := String.ofList (lowercase s.toList)

/-- Lowers the letters of ASCII and no others. -/
def asciiLowered (s : String) : String :=
  String.ofList (s.toList.map Char.toLower)

def isBlankString (s : String) : Bool := s.toList.all isBlank

end Resemblance.Text
