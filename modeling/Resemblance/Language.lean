import Resemblance.Path
import Resemblance.Text.Strings

/-!
# Source languages

A language decides which comments are stripped before a text is cut into
tokens.  It is found from a file extension or read from its own name.
-/

namespace Resemblance

inductive Language where
  | python
  | javascript
  | java
  | cpp
  | c
  | csharp
  | unknown
  deriving DecidableEq, Repr, Inhabited

namespace Language

def all : List Language := [python, javascript, java, cpp, c, csharp, unknown]

theorem mem_all (l : Language) : l ∈ all := by cases l <;> decide

def name : Language → String
  | python => "python"
  | javascript => "javascript"
  | java => "java"
  | cpp => "cpp"
  | c => "c"
  | csharp => "csharp"
  | unknown => "unknown"

def named? (s : String) : Option Language := all.find? (·.name == s)

theorem named?_name (l : Language) : named? l.name = some l := by
  cases l <;> decide

/-- The language of a file extension without its dot, in any mix of ASCII
cases. -/
def ofExtension (extension : String) : Language :=
  match Text.asciiLowered extension with
  | "py" => python
  | "js" => javascript
  | "java" => java
  | "cpp" => cpp
  | "c" => c
  | "cs" => csharp
  | _ => unknown

def ofPath (path : String) : Language :=
  ((Path.extension? path).map ofExtension).getD unknown

structure ParseError where
  tag : String
  deriving DecidableEq

def ParseError.message (e : ParseError) : String :=
  s!"unknown language tag `{e.tag}`"

def parse (tag : String) : Except ParseError Language :=
  match named? (Text.asciiLowered (Text.trimmed tag)) with
  | some l => .ok l
  | none => .error ⟨tag⟩

end Language

end Resemblance
