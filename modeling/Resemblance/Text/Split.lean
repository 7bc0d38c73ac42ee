/-!
# Splitting at a character
-/

namespace Resemblance.Text

/-- The parts between the separators; there is always one more part than
separators. -/
def splitAt (separator : Char) : List Char → List (List Char)
  | [] => [[]]
  | c :: rest =>
    if c == separator then [] :: splitAt separator rest
    else match splitAt separator rest with
      | [] => [[c]]
      | part :: parts => (c :: part) :: parts

theorem splitAt_ne_nil
    (separator : Char)
    (t : List Char) :
    splitAt separator t ≠ [] := by
  cases t with
  | nil => simp [splitAt]
  | cons c rest =>
    unfold splitAt
    split
    · simp
    · split <;> simp

def lines (t : List Char) : List (List Char) := splitAt '\n' t

end Resemblance.Text
