import Resemblance.Yaml.Basic
import Resemblance.Yaml.Lexing

/-!
# From lexemes to nodes

A text holds one document.  An anchor is numbered where its node begins, by how
many names are known there, so a name that is given anew shares its number with
the next new name.
-/

namespace Resemblance.Yaml

structure ReaderState where
  lexemes : List Lexeme
  handles : List (List Char × Tag)
  names : List (List Char × Nat) := []

abbrev Reader := StateT ReaderState Option

namespace Reader

def next? : Reader (Option Lexeme) := return (← get).lexemes.head?

def pass : Reader Unit := modify fun s => { s with lexemes := s.lexemes.drop 1 }

def nextIsIn (ls : List Lexeme) : Reader Bool :=
  return (← next?).any ls.contains

def expect (l : Lexeme) : Reader Unit := do
  if ← nextIsIn [l] then pass else failure

def numberOf (name : List Char) : Reader Nat := do
  match (← get).names.lookup name with
  | some number => return number
  | none => failure

def nameNode (name : List Char) : Reader Nat := do
  let s ← get
  let number := s.names.length
  set { s with names := (name, number) :: s.names.filter (·.1 != name) }
  return number

def tagOf (name : TagName) : Reader Tag := do
  if name.handle.isEmpty then return name.rest
  match (← get).handles.lookup name.handle with
  | some start => return start ++ name.rest
  | none => failure

end Reader

open Reader

structure Properties where
  anchor : Option Nat := none
  tag : Option Tag := none

def Properties.wrap (p : Properties) (node : Yaml) : Yaml :=
  match p.anchor with
  | some number => .anchored number node
  | none => node

/-- An anchor or a tag may stand for an empty node, but something has to
stand. -/
def Properties.alone (p : Properties) : Reader Yaml :=
  if p.anchor.isSome || p.tag.isSome then
    return p.wrap (.scalar .plain p.tag "") else failure

def anchorHere : Reader (Option Nat) := do
  if let some (.anchor name) ← next? then
    pass
    return some (← nameNode name)
  return none

def tagHere : Reader (Option Tag) := do
  if let some (.tag name) ← next? then
    pass
    return some (← tagOf name)
  return none

/-- Anchor and tag in either order. -/
def properties : Reader Properties := do
  match ← tagHere with
  | some tag => return { anchor := ← anchorHere, tag := some tag }
  | none =>
    let anchor ← anchorHere
    return { anchor, tag := ← tagHere }

def nodeUnless (ends : List Lexeme) (node : Reader Yaml) : Reader Yaml := do
  if ← nextIsIn ends then return .empty else node

mutual

/-- A node.  Blocks may begin in it outside of brackets, and a sequence without
a block of its own as part of a mapping. -/
def node : Nat → Bool → Bool → Reader Yaml
  | 0, _, _ => failure
  | fuel + 1, inBlock, inMapping => do
    if let some (.alias name) ← next? then
      pass
      return .alias (← numberOf name)
    let p ← properties
    match ← next? with
    | some (.scalar style t) =>
      pass
      return p.wrap (.scalar style p.tag (String.ofList t))
    | some .sequenceStart =>
      pass
      return p.wrap (.seq (← flowItems fuel true))
    | some .mappingStart =>
      pass
      return p.wrap (.map (← flowEntries fuel true))
    | some .item =>
      if inMapping then return p.wrap (.seq (← looseItems fuel)) else p.alone
    | some .blockSequence =>
      if inBlock then
        pass
        return p.wrap (.seq (← blockItems fuel))
      else p.alone
    | some .blockMapping =>
      if inBlock then
        pass
        return p.wrap (.map (← blockEntries fuel))
      else p.alone
    | _ => p.alone

def blockItems : Nat → Reader (List Yaml)
  | 0 => failure
  | fuel + 1 => do
    if ← nextIsIn [.blockEnd] then
      pass
      return []
    expect .item
    let item ← nodeUnless [.item, .blockEnd] (node fuel true false)
    return item :: (← blockItems fuel)

/-- The items of a sequence that has the column of the mapping around it. -/
def looseItems : Nat → Reader (List Yaml)
  | 0 => failure
  | fuel + 1 => do
    if !(← nextIsIn [.item]) then return []
    pass
    let item ← nodeUnless [.item, .key, .value, .blockEnd]
      (node fuel true false)
    return item :: (← looseItems fuel)

def blockEntries : Nat → Reader (List (Yaml × Yaml))
  | 0 => failure
  | fuel + 1 => do
    if ← nextIsIn [.blockEnd] then
      pass
      return []
    expect .key
    let key ← nodeUnless [.key, .value, .blockEnd] (node fuel true true)
    let value ←
      if ← nextIsIn [.value] then
        pass
        nodeUnless [.key, .value, .blockEnd] (node fuel true true)
      else pure .empty
    return (key, value) :: (← blockEntries fuel)

/-- What follows the colon of a pair inside brackets, if there is one. -/
def flowValue : Nat → Lexeme → Reader Yaml
  | 0, _ => failure
  | fuel + 1, closer => do
    if ← nextIsIn [.value] then
      pass
      nodeUnless [.comma, closer] (node fuel false false)
    else return .empty

/-- The items of a sequence up to its bracket; a comma stands before each but
the first.  The lexeme that shows an empty key there is lost. -/
def flowItems : Nat → Bool → Reader (List Yaml)
  | 0, _ => failure
  | fuel + 1, isFirst => do
    if !isFirst && !(← nextIsIn [.sequenceEnd]) then expect .comma
    if ← nextIsIn [.sequenceEnd] then
      pass
      return []
    let item ←
      if ← nextIsIn [.key] then
        pass
        let key ←
          if ← nextIsIn [.value, .comma, .sequenceEnd] then
            pass
            pure .empty
          else node fuel false false
        let value ← flowValue fuel .sequenceEnd
        pure (.map [(key, value)])
      else node fuel false false
    return item :: (← flowItems fuel false)

/-- The entries of a mapping up to its brace; a comma stands before each but the
first. -/
def flowEntries : Nat → Bool → Reader (List (Yaml × Yaml))
  | 0, _ => failure
  | fuel + 1, isFirst => do
    if !isFirst && !(← nextIsIn [.mappingEnd]) then expect .comma
    if ← nextIsIn [.mappingEnd] then
      pass
      return []
    let entry ←
      if ← nextIsIn [.key] then
        pass
        let key ← nodeUnless [.value, .comma, .mappingEnd]
          (node fuel false false)
        let value ← flowValue fuel .mappingEnd
        pure (key, value)
      else
        let key ← node fuel false false
        pure (key, .empty)
    return entry :: (← flowEntries fuel false)

end

/-- The content of a document, which may be left out behind dashes. -/
def documentContent (isExplicit : Bool) : Reader Yaml := do
  let lexemes := (← get).lexemes
  let isAbsent := match lexemes.head? with
    | none | some .documentStart | some .documentEnd | some (.directive _) =>
      true
    | _ => false
  if isExplicit && isAbsent then return .empty
  else node (2 * lexemes.length + 2) true false

def directive? : Lexeme → Option Directive
  | .directive d => some d
  | _ => none

/-- The one document, with its directives in front and dots behind it. -/
def ofLexemes? (ls : List Lexeme) : Option Yaml := do
  let directives :=
    (ls.takeWhile fun l => (directive? l).isSome).filterMap directive?
  let ls := ls.drop directives.length
  let isExplicit := ls.head? == some .documentStart
  if !isExplicit && !directives.isEmpty then none
  let handles ← Directive.handles? directives
  let lexemes := if isExplicit then ls.drop 1 else ls
  let (node, s) ← (documentContent isExplicit).run { lexemes, handles }
  if s.lexemes.all (· == .documentEnd) then some node else none

def read? (s : String) : Option Place :=
  let t := unifyBreaks s.toList
  if t.all isAllowed then ((Lexeme.ofText? t).bind ofLexemes?).map Place.root
  else none

end Resemblance.Yaml
