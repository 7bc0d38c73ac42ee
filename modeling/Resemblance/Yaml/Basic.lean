import Resemblance.Yaml.Lexeme

/-!
# YAML nodes

A node is a scalar, a sequence or a mapping, or stands for another node of its
document.  Nodes are referred to by numbers, and where several have one number,
it means the one that begins last.
-/

namespace Resemblance

inductive Yaml where
  | scalar (style : Yaml.Style) (tag : Option Yaml.Tag) (text : String)
  | seq (items : List Yaml)
  | map (entries : List (Yaml × Yaml))
  | anchored (number : Nat) (node : Yaml)
  | alias (number : Nat)

namespace Yaml

def empty : Yaml := .scalar .plain none ""

/-! ## Anchors -/

mutual

/-- The anchored nodes in the order in which they begin. -/
def anchors : Yaml → List (Nat × Yaml)
  | .scalar _ _ _ | .alias _ => []
  | .seq items => anchorsOfItems items
  | .map entries => anchorsOfEntries entries
  | .anchored number node => (number, node) :: anchors node

def anchorsOfItems : List Yaml → List (Nat × Yaml)
  | [] => []
  | item :: rest => anchors item ++ anchorsOfItems rest

def anchorsOfEntries : List (Yaml × Yaml) → List (Nat × Yaml)
  | [] => []
  | entry :: rest => anchorsOfEntry entry ++ anchorsOfEntries rest

def anchorsOfEntry : Yaml × Yaml → List (Nat × Yaml)
  | (key, value) => anchors key ++ anchors value

end

/-! ## Size -/

mutual

/-- One for each scalar and alias, and two for the ends of each collection. -/
def size : Yaml → Nat
  | .scalar _ _ _ | .alias _ => 1
  | .seq items => sizeOfItems items + 2
  | .map entries => sizeOfEntries entries + 2
  | .anchored _ node => size node

def sizeOfItems : List Yaml → Nat
  | [] => 0
  | item :: rest => size item + sizeOfItems rest

def sizeOfEntries : List (Yaml × Yaml) → Nat
  | [] => 0
  | entry :: rest => sizeOfEntry entry + sizeOfEntries rest

def sizeOfEntry : Yaml × Yaml → Nat
  | (key, value) => size key + size value

end

/-- A node within its document. -/
structure Place where
  node : Yaml
  /-- What each number refers to; the first entry for a number holds. -/
  targets : List (Nat × Yaml)

namespace Place

def root (node : Yaml) : Place := ⟨node, node.anchors.reverse⟩

def isAlias (p : Place) : Bool :=
  match p.node with
  | .alias _ => true
  | _ => false

/-- The node itself, or the one that it stands for. -/
def content (p : Place) : Yaml :=
  match p.node with
  | .alias number => (p.targets.lookup number).getD p.node
  | .anchored _ node => node
  | node => node

def visit (p : Place) (node : Yaml) : Place := { p with node }

end Place

end Yaml

end Resemblance
