import WorkflowEngine.Record
import WorkflowEngine.Yaml.Token

/-!
# The nodes of a YAML document

A document is a tree of scalars, sequences and mappings. Any node may be given an anchor, and an
alias stands for a node that has one, maybe for one that it lies in itself.

**Numbers of anchors.** A name that is given as an anchor gets a number: how many names are in use.
An alias stands for the last node in the document that was given the number of its name. A name that
is given again gets a new number without adding to the names in use, so the next new name gets the
same number.
-/

namespace WorkflowEngine.Yaml

inductive Node where
  | scalar (tag : Option Tag) (style : Style) (text : String)
  | sequence (tag : Option Tag) (items : List Node)
  | mapping (tag : Option Tag) (entries : List (Node × Node))
  /-- Stands for the node with the anchor of this number. -/
  | alias (number : Nat)

namespace Node

/-- What stands where nothing is written. -/
def empty : Node := .scalar none .plain ""

instance : Inhabited Node := ⟨empty⟩

mutual

/-- How many scalars and aliases are in a node, and how many starts and ends of collections. -/
def size : Node → Nat
  | .scalar .. | .alias _ => 1
  | .sequence _ items => itemsSize items + 2
  | .mapping _ entries => entriesSize entries + 2

def itemsSize : List Node → Nat
  | [] => 0
  | n :: ns => size n + itemsSize ns

def entriesSize : List (Node × Node) → Nat
  | [] => 0
  | (k, v) :: es => size k + size v + entriesSize es

end

end Node

/-! ## Anchors -/

structure Anchors where
  /-- The numbers of the names. -/
  numbers : Record Nat := .empty
  /-- For each number, the last node that was given it; nodes are counted by their anchors. -/
  latest : List (Nat × Nat) := []
  /-- How many nodes were given an anchor. -/
  count : Nat := 0
  /-- The nodes with an anchor that are complete. -/
  nodes : List (Nat × Node) := []

namespace Anchors

/-- A node is given a name. -/
def give (a : Anchors) (name : String) : Anchors :=
  let number := a.numbers.size
  { a with
    numbers := a.numbers.insert name number
    latest := (number, a.count) :: a.latest
    count := a.count + 1 }

/-- A node with an anchor is complete. -/
def keep (a : Anchors) (index : Nat) (n : Node) : Anchors :=
  { a with nodes := (index, n) :: a.nodes }

/-- The node that an alias with this number stands for. -/
def node? (a : Anchors) (number : Nat) : Option Node :=
  (a.latest.lookup number).bind fun index => a.nodes.lookup index

end Anchors

structure Document where
  /-- The root; `none` for a text without tokens. -/
  root : Option Node
  anchors : Anchors

/-- The number of scalars, aliases, and starts and ends of collections in a document. -/
def Document.size (d : Document) : Nat := d.root.elim 1 Node.size

end WorkflowEngine.Yaml
