import Resemblance.Json.Basic

/-!
# Writing JSON

A value is written on one line without blanks, or indented by two spaces a
level with one item to a line.  What has no text is written as null.
-/

namespace Resemblance.Json

inductive Layout where
  | compact
  | indented
  deriving DecidableEq

/-- Digits of a control character in an escape, in lower case. -/
def hexPair (n : Nat) : List Char := (Nat.toDigits 16 n).leftpad 2 '0'

/-- Quotes, backslashes and control characters are escaped and nothing else. -/
def escapeChar (c : Char) : List Char :=
  match c with
  | '"' => ['\\', '"']
  | '\\' => ['\\', '\\']
  | '\n' => ['\\', 'n']
  | '\r' => ['\\', 'r']
  | '\t' => ['\\', 't']
  | _ =>
    if c.toNat = 0x08 then ['\\', 'b']
    else if c.toNat = 0x0C then ['\\', 'f']
    else if c.toNat < 0x20 then ['\\', 'u', '0', '0'] ++ hexPair c.toNat
    else [c]

def quote (s : String) : List Char :=
  '"' :: s.toList.flatMap escapeChar ++ ['"']

namespace Layout

def newline (l : Layout) (depth : Nat) : List Char :=
  match l with
  | .compact => []
  | .indented => '\n' :: List.replicate (2 * depth) ' '

def colon : Layout → List Char
  | .compact => [':']
  | .indented => [':', ' ']

/-- Puts written items between brackets; without items the brackets stand
together. -/
def bracket
    (l : Layout) (depth : Nat) (opener closer : Char)
    (items : List (List Char)) :
    List Char :=
  if items.isEmpty then [opener, closer]
  else
    opener :: l.newline (depth + 1) ++
      (',' :: l.newline (depth + 1)).intercalate items ++ l.newline depth ++
        [closer]

end Layout

mutual

def write (l : Layout) (depth : Nat) : Json → List Char
  | .null | .unspelled => "null".toList
  | .bool b => (if b then "true" else "false").toList
  | .number literal => literal
  | .string s => quote s
  | .array items => l.bracket depth '[' ']' (writeItems l (depth + 1) items)
  | .object members =>
    l.bracket depth '\x7b' '\x7d' (writeMembers l (depth + 1) members)

def writeItems (l : Layout) (depth : Nat) : List Json → List (List Char)
  | [] => []
  | item :: rest => write l depth item :: writeItems l depth rest

def writeMembers
    (l : Layout) (depth : Nat) : List (String × Json) → List (List Char)
  | [] => []
  | member :: rest => writeMember l depth member :: writeMembers l depth rest

def writeMember (l : Layout) (depth : Nat) : String × Json → List Char
  | (name, value) => quote name ++ l.colon ++ write l depth value

end

def compact (j : Json) : String := String.ofList (j.write .compact 0)

def indented (j : Json) : String := String.ofList (j.write .indented 0)

end Resemblance.Json
