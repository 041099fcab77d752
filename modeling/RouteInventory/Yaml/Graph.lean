import RouteInventory.Yaml.Tag

/-!
# Graphs

A YAML document as a graph: its nodes are scalars, sequences and mappings, each of a type, and the
parts of a collection are named by their numbers, so that a collection may be a part of itself. The
nodes of a graph only ever grow in number.
-/

namespace RouteInventory.Yaml

/-- What a node holds. -/
inductive Content
  | scalar (text : String)
  | sequence (items : List Nat)
  | mapping (entries : List (Nat × Nat))
deriving DecidableEq, Repr

structure Node where
  tag : Tag
  content : Content
deriving DecidableEq, Repr

namespace Node

/-- The entries of a mapping. -/
def entries (n : Node) : List (Nat × Nat) :=
  match n.content with
  | .mapping entries => entries
  | _ => []

def isMapping (n : Node) : Bool :=
  match n.content with
  | .mapping _ => true
  | _ => false

end Node

/-- The nodes by number. -/
abbrev Nodes := Array Node

namespace Nodes

/-- What a node holds, if there is such a node. -/
def content? (nodes : Nodes) (n : Nat) : Option Content := nodes[n]?.map (·.content)

/-- The type of a node; no type if there is no such node. -/
def tag (nodes : Nodes) (n : Nat) : Tag := (nodes[n]?.map (·.tag)).getD .other

/-- The entries of a mapping; none if the node is no mapping. -/
def entries (nodes : Nodes) (n : Nat) : List (Nat × Nat) := (nodes[n]?.map (·.entries)).getD []

def isMapping (nodes : Nodes) (n : Nat) : Bool := nodes[n]?.any (·.isMapping)

def setContent (nodes : Nodes) (n : Nat) (content : Content) : Nodes :=
  nodes.modify n fun node => { node with content }

def setTag (nodes : Nodes) (n : Nat) (tag : Tag) : Nodes :=
  nodes.modify n fun node => { node with tag }

@[simp] theorem size_setContent (nodes : Nodes) (n : Nat) (content : Content) :
    (nodes.setContent n content).size = nodes.size := Array.size_modify ..

@[simp] theorem size_setTag (nodes : Nodes) (n : Nat) (tag : Tag) :
    (nodes.setTag n tag).size = nodes.size := Array.size_modify ..

/-- The number of entries in all mappings. -/
def entryCount (nodes : Nodes) : Nat := nodes.foldl (fun count node => count + node.entries.length) 0

/-- The number of items and entries in all collections. -/
def partCount (nodes : Nodes) : Nat :=
  nodes.foldl (fun count node =>
    count + match node.content with
      | .scalar _ => 0
      | .sequence items => items.length
      | .mapping entries => entries.length) 0

end Nodes

/-- A document: its nodes and the number of the outermost. -/
structure Graph where
  nodes : Nodes
  root : Nat
deriving Repr

end RouteInventory.Yaml
