import Resemblance.Yaml.Directive

/-!
# Lexemes of YAML

The signs, names and scalars of a text in their order.  Where indentation opens
or closes a block, a lexeme without characters stands for it.
-/

namespace Resemblance.Yaml

inductive Style where
  | plain
  | quoted
  | literal
  | folded
  deriving DecidableEq

inductive Lexeme where
  | directive (d : Directive)
  | documentStart
  | documentEnd
  | blockSequence
  | blockMapping
  | blockEnd
  | item
  | key
  | value
  | sequenceStart
  | sequenceEnd
  | mappingStart
  | mappingEnd
  | comma
  | alias (name : List Char)
  | anchor (name : List Char)
  | tag (name : TagName)
  | scalar (style : Style) (text : List Char)
  deriving DecidableEq

end Resemblance.Yaml
