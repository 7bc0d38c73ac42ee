/-!
# Leftmost matches

A pattern tells how long its match at the start of a text is, and zero stands
for no match.  Replacing and collecting walk the text once from the left: a
match is taken where it is first met, its characters are passed over, and the
walk goes on behind it, so removed text is never joined with its neighbours
before the search ends.
-/

namespace Resemblance.Text

structure Pattern where
  matchLength : List Char → Nat

namespace Pattern

/-- Replaces the leftmost matches by `substitute` after the first `skip`
characters are dropped. -/
def replaceFrom
    (p : Pattern) (substitute : List Char) : Nat → List Char → List Char
  | _, [] => []
  | skip + 1, _ :: rest => p.replaceFrom substitute skip rest
  | 0, c :: rest =>
    match p.matchLength (c :: rest) with
    | 0 => c :: p.replaceFrom substitute 0 rest
    | n + 1 => substitute ++ p.replaceFrom substitute n rest

def replace (p : Pattern) (substitute text : List Char) : List Char :=
  p.replaceFrom substitute 0 text

/-- Collects the leftmost matches after the first `skip` characters are
dropped. -/
def findAllFrom (p : Pattern) : Nat → List Char → List (List Char)
  | _, [] => []
  | skip + 1, _ :: rest => p.findAllFrom skip rest
  | 0, c :: rest =>
    match p.matchLength (c :: rest) with
    | 0 => p.findAllFrom 0 rest
    | n + 1 => (c :: rest).take (n + 1) :: p.findAllFrom n rest

def findAll (p : Pattern) (text : List Char) : List (List Char) :=
  p.findAllFrom 0 text

/-- A longest run of characters of one class. -/
def run (belongs : Char → Bool) : Pattern where
  matchLength text := (text.takeWhile belongs).length

/-- The length of the shortest start of the text that ends with `closer`. -/
def lengthThrough (closer : List Char) : List Char → Option Nat
  | [] => none
  | c :: rest =>
    if closer.isPrefixOf (c :: rest) then some closer.length
    else (lengthThrough closer rest).map (· + 1)

/-- An opener and everything up to the first closer behind it; without a closer
there is none. -/
def enclosed (opener closer : List Char) : Pattern where
  matchLength text :=
    if opener.isPrefixOf text then
      match lengthThrough closer (text.drop opener.length) with
      | some n => opener.length + n
      | none => 0
    else 0

/-- A marker and the rest of its line; only a line feed ends a line. -/
def toLineEnd (marker : List Char) : Pattern where
  matchLength text :=
    if marker.isPrefixOf text then (text.takeWhile (· != '\n')).length else 0

/-- One pass over the whole text for each pattern, in order. -/
def replaceEach (ps : List Pattern) (substitute text : List Char) : List Char :=
  ps.foldl (fun t p => p.replace substitute t) text

@[simp] theorem replaceFrom_nil
    (p : Pattern)
    (s : List Char)
    (skip : Nat) :
    p.replaceFrom s skip [] = [] := by
  cases skip <;> rfl

@[simp] theorem findAllFrom_nil
    (p : Pattern)
    (skip : Nat) :
    p.findAllFrom skip [] = [] := by
  cases skip <;> rfl

theorem replaceFrom_eq_drop
    (p : Pattern)
    (s : List Char)
    (skip : Nat)
    (text : List Char) :
    p.replaceFrom s skip text = p.replaceFrom s 0 (text.drop skip) := by
  induction text generalizing skip with
  | nil => simp
  | cons c rest ih =>
    cases skip with
    | zero => rfl
    | succ skip => exact ih skip

theorem findAllFrom_eq_drop
    (p : Pattern)
    (skip : Nat)
    (text : List Char) :
    p.findAllFrom skip text = p.findAllFrom 0 (text.drop skip) := by
  induction text generalizing skip with
  | nil => simp
  | cons c rest ih =>
    cases skip with
    | zero => rfl
    | succ skip => exact ih skip

end Pattern

end Resemblance.Text
