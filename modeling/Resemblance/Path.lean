import Resemblance.Text.Split

/-!
# Paths

A path is a text whose parts stand between slashes.  Empty parts and single
dots name nothing, and two dots lead to the parent.
-/

namespace Resemblance.Path

def isStep (part : List Char) : Bool := part != [] && part != ['.']

def steps (path : String) : List (List Char) :=
  (Text.splitAt '/' path.toList).filter isStep

/-- The last step of a path, unless it leads to a parent. -/
def fileName? (path : String) : Option (List Char) :=
  match (steps path).getLast? with
  | some name => if name = ['.', '.'] then none else some name
  | none => none

/-- What follows the last dot of a name; a dot at the start of the name begins
no extension. -/
def extensionOf? (name : List Char) : Option (List Char) :=
  let reversed := name.reverse
  match reversed.dropWhile (· != '.') with
  | _ :: _ :: _ => some (reversed.takeWhile (· != '.')).reverse
  | _ => none

def extension? (path : String) : Option String :=
  (fileName? path >>= extensionOf?).map String.ofList

/-- The name under which a path is shown: its file name, or the whole path when
it has none. -/
def displayName (path : String) : String :=
  match fileName? path with
  | some name => String.ofList name
  | none => path

end Resemblance.Path
