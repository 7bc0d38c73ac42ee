/-!
# Documents

What the readers of settings and results need from a document, whatever its
notation.  Every access gives none where the document holds something else.
-/

namespace Resemblance

class Document (δ : Type) where
  float? : δ → Option Float
  /-- A whole number that fits into so many bits. -/
  nat? : Nat → δ → Option Nat
  bool? : δ → Option Bool
  string? : δ → Option String
  /-- The name of a choice without content. -/
  choice? : δ → Option String
  /-- Whether it is null; none if it claims to be and is not. -/
  isNull? : δ → Option Bool
  items? : δ → Option (List δ)
  entries? : δ → Option (List (δ × δ))
  /-- The values of the named fields.  Other fields are ignored and a repeated
  one is refused. -/
  fields? : List String → δ → Option (List (Option δ))

namespace Document

variable {δ : Type} [Document δ] {α : Type}

/-- An absent field has its default; a present one has to be readable. -/
def orDefault (default : α) (read? : δ → Option α) : Option δ → Option α
  | none => some default
  | some d => read? d

def required (read? : δ → Option α) (field : Option δ) : Option α :=
  field.bind read?

/-- Null is a value of its own. -/
def nullable (read? : δ → Option α) (d : δ) : Option (Option α) := do
  if ← isNull? d then return none else return some (← read? d)

/-- Reads a choice by the names of its values. -/
def choice (named? : String → Option α) (d : δ) : Option α :=
  (choice? d).bind named?

end Document

end Resemblance
