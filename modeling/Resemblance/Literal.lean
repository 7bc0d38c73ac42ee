import Resemblance.Text.Pattern

/-!
# String literals

A literal runs from a quote to the next one of its kind, over line ends and
whatever a backslash may mean.  All literals are masked by one sentinel, those
in double quotes first.
-/

namespace Resemblance.Literal

open Text

def sentinel : List Char := "STRING_LITERAL".toList

def quoted (quote : Char) : Pattern := .enclosed [quote] [quote]

def maskWith (quote : Char) (text : List Char) : List Char :=
  (quoted quote).replace sentinel text

def mask (text : List Char) : List Char :=
  maskWith '\'' (maskWith '"' text)

end Resemblance.Literal
