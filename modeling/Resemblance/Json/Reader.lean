import Resemblance.Json.Basic
import Resemblance.Text.Digits

/-!
# Reading JSON

The whole text has to be one value, with blanks around its signs.
-/

namespace Resemblance.Json

open Text

def skipBlanks (t : List Char) : List Char :=
  t.dropWhile fun c => c == ' ' || c == '\n' || c == '\r' || c == '\t'

def plainEscape? : Char → Option Char
  | '"' => some '"'
  | '\\' => some '\\'
  | '/' => some '/'
  | 'b' => some '\x08'
  | 'f' => some '\x0c'
  | 'n' => some '\n'
  | 'r' => some '\r'
  | 't' => some '\t'
  | _ => none

def isHighSurrogate (n : Nat) : Bool := 0xD800 ≤ n && n ≤ 0xDBFF

def isLowSurrogate (n : Nat) : Bool := 0xDC00 ≤ n && n ≤ 0xDFFF

/-- The content of a string, which is none if it has no text, and what follows
the string. -/
abbrev StringEnd := Option (List Char) × List Char

def StringEnd.cons (c : Char) (e : StringEnd) : StringEnd :=
  (e.1.map (c :: ·), e.2)

/-- Reads behind an opening quote through the closing one.  A surrogate without
its partner leaves the string without a text. -/
def readString? : List Char → Option StringEnd
  | [] => none
  | '"' :: rest => some (some [], rest)
  | '\\' :: 'u' :: a :: b :: c :: d ::
      '\\' :: 'u' :: a' :: b' :: c' :: d' :: rest => do
    let n ← number? 16 [a, b, c, d]
    let low ← number? 16 [a', b', c', d']
    if isHighSurrogate n && isLowSurrogate low then
      let e ← readString? rest
      some
        (e.cons (Char.ofNat (0x10000 + (n - 0xD800) * 0x400 + (low - 0xDC00))))
    else
      let e ← readString? ('\\' :: 'u' :: a' :: b' :: c' :: d' :: rest)
      some (if n.isValidChar then e.cons (Char.ofNat n) else (none, e.2))
  | '\\' :: 'u' :: a :: b :: c :: d :: rest => do
    let n ← number? 16 [a, b, c, d]
    let e ← readString? rest
    some (if n.isValidChar then e.cons (Char.ofNat n) else (none, e.2))
  | '\\' :: e :: rest => do
    let c ← plainEscape? e
    let e ← readString? rest
    some (e.cons c)
  | c :: rest => do
    if c.toNat < 0x20 then none
    let e ← readString? rest
    some (e.cons c)

def stringOf (content : Option (List Char)) : Json :=
  (content.map fun t => .string (String.ofList t)).getD .unspelled

def consMember
    (name : Option (List Char)) (value : Json)
    (members : Option (List (String × Json))) : Option (List (String × Json)) :=
  match name, members with
  | some name, some members => some ((String.ofList name, value) :: members)
  | _, _ => none

/-- The digits at the start of a text, of which there has to be one. -/
def readDigits? (t : List Char) : Option (List Char × List Char) :=
  let digits := t.takeWhile Char.isDigit
  if digits.isEmpty then none else some (digits, t.dropWhile Char.isDigit)

/-- A whole part without a needless zero in front. -/
def readWhole? : List Char → Option (List Char × List Char)
  | '0' :: rest =>
    if rest.head?.any Char.isDigit then none else some (['0'], rest)
  | t => readDigits? t

def readFraction? : List Char → Option (List Char × List Char)
  | '.' :: rest =>
    (readDigits? rest).map fun (digits, rest) => ('.' :: digits, rest)
  | t => some ([], t)

def readPower? : List Char → Option (List Char × List Char)
  | [] => some ([], [])
  | e :: rest =>
    if e == 'e' || e == 'E' then
      let (sign, rest) := match rest with
        | '+' :: r => (['+'], r)
        | '-' :: r => (['-'], r)
        | r => ([], r)
      (readDigits? rest).map fun (digits, rest) => (e :: sign ++ digits, rest)
    else some ([], e :: rest)

def readNumber? (t : List Char) : Option (List Char × List Char) := do
  let (sign, rest) := match t with
    | '-' :: r => (['-'], r)
    | r => ([], r)
  let (whole, rest) ← readWhole? rest
  let (fraction, rest) ← readFraction? rest
  let (power, rest) ← readPower? rest
  some (sign ++ whole ++ fraction ++ power, rest)

mutual

/-- Reads one value; each call takes one unit of fuel, and two a character are
enough. -/
def readValue? : Nat → List Char → Option (Json × List Char)
  | 0, _ => none
  | fuel + 1, t =>
    match skipBlanks t with
    | 'n' :: 'u' :: 'l' :: 'l' :: rest => some (.null, rest)
    | 't' :: 'r' :: 'u' :: 'e' :: rest => some (.bool true, rest)
    | 'f' :: 'a' :: 'l' :: 's' :: 'e' :: rest => some (.bool false, rest)
    | '"' :: rest =>
      (readString? rest).map fun (content, rest) => (stringOf content, rest)
    | '[' :: rest =>
      match skipBlanks rest with
      | ']' :: rest => some (.array [], rest)
      | rest =>
        (readItems? fuel rest).map fun (items, rest) => (.array items, rest)
    | '\x7b' :: rest =>
      match skipBlanks rest with
      | '\x7d' :: rest => some (.object [], rest)
      | rest =>
        (readMembers? fuel rest).map fun (members, rest) =>
          ((members.map object).getD .unspelled, rest)
    | rest =>
      (readNumber? rest).map fun (literal, rest) => (.number literal, rest)

def readItems? : Nat → List Char → Option (List Json × List Char)
  | 0, _ => none
  | fuel + 1, t => do
    let (item, rest) ← readValue? fuel t
    match skipBlanks rest with
    | ',' :: rest =>
      let (items, rest) ← readItems? fuel rest
      some (item :: items, rest)
    | ']' :: rest => some ([item], rest)
    | _ => none

def readMembers? : Nat → List Char →
    Option (Option (List (String × Json)) × List Char)
  | 0, _ => none
  | fuel + 1, t =>
    match skipBlanks t with
    | '"' :: rest => do
      let (name, rest) ← readString? rest
      match skipBlanks rest with
      | ':' :: rest =>
        let (value, rest) ← readValue? fuel rest
        match skipBlanks rest with
        | ',' :: rest =>
          let (members, rest) ← readMembers? fuel rest
          some (consMember name value members, rest)
        | '\x7d' :: rest => some (consMember name value (some []), rest)
        | _ => none
      | _ => none
    | _ => none

end

def read? (s : String) : Option Json := do
  let t := s.toList
  let (value, rest) ← readValue? (2 * t.length + 2) t
  if (skipBlanks rest).isEmpty then some value else none

end Resemblance.Json
