import Resemblance.Text.Blank
import Resemblance.Text.Pattern

/-!
# Words and collapsed blanks

The words of a text are its longest runs of characters that are not blank.
-/

namespace Resemblance.Text

def words (t : List Char) : List (List Char) :=
  (Pattern.run fun c => !isBlank c).findAll t

/-- Every run of blanks becomes one space, and the runs at the two ends
vanish. -/
def collapse (t : List Char) : List Char :=
  [' '].intercalate (words t)

end Resemblance.Text
