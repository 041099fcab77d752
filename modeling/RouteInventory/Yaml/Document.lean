import RouteInventory.Value.Order
import RouteInventory.Value.Slots
import RouteInventory.Yaml.Denotation
import RouteInventory.Yaml.Merge
import RouteInventory.Yaml.Structure

/-!
# Documents

The value of a YAML text. The collections of its graph are filled in the order in which they are met,
each after those that were met before it, and every node has one value wherever it occurs; then they
are unfolded from the outermost on, a collection within itself being left out where it occurs again.
A text without a document is null.
-/

namespace RouteInventory.Yaml

/-- A node's value: a finished one, or a collection by the number of its node. -/
inductive Part
  | value (v : Value)
  | collection (n : Nat)
deriving Repr

/-- What a collection holds. -/
inductive Filling
  | items (parts : List Part)
  | pairs (parts : List (Part × Part))
  | members (values : List Value)
  | entries (parts : List (Value × Part))
deriving Repr

/-- The nodes, the parts that are known by node, the collections that wait to be filled, and what the
others hold. -/
structure Building where
  nodes : Nodes
  parts : List (Nat × Part) := []
  waiting : List Nat := []
  fillings : List (Nat × Filling) := []

abbrev Builder := StateT Building (Except Fault)

/-- Whether a type is that of a collection. -/
def Tag.isCollection : Tag → Bool
  | seq | map | set | omap | pairs => true
  | _ => false

namespace Builder

/-- The part that a node is; a collection that is met for the first time has to wait. -/
def part (n : Nat) : Builder Part := do
  let b ← get
  match b.parts.lookup n with
  | some known => return known
  | none =>
    if (b.nodes.tag n).isCollection then
      let new := Part.collection n
      set { b with parts := (n, new) :: b.parts, waiting := b.waiting ++ [n] }
      return new
    else
      let new := Part.value (← b.nodes.scalarValue n)
      set { b with parts := (n, new) :: b.parts }
      return new

/-- The value of a node that is a key; a collection is none. -/
def key (n : Nat) : Builder Value := do
  match ← part n with
  | .value v => return v
  | .collection _ => throw .malformed

/-- The entries with one set: under its old key if there is one, else at the end. -/
def setPart (key : Value) (p : Part) : List (Value × Part) → List (Value × Part)
  | [] => [(key, p)]
  | (k, q) :: rest => if k.alike key then (k, p) :: rest else (k, q) :: setPart key p rest

/-- The entries of a mapping, its merges done and the last of a key counting. -/
def entries (n : Nat) : Builder (List (Value × Part)) := do
  let b ← get
  if !b.nodes.isMapping n then throw .malformed
  let nodes ← b.nodes.flatten n
  set { b with nodes }
  (nodes.entries n).foldlM (fun known (k, v) => do
    let k ← key k
    return setPart k (← part v) known) []

def items (n : Nat) : Builder (List Nat) := do
  match (← get).nodes.content? n with
  | some (.sequence items) => return items
  | _ => throw .malformed

/-- A mapping of one entry as a pair. -/
def pair (n : Nat) : Builder (Part × Part) := do
  match (← get).nodes.entries n with
  | [(key, value)] => return (← part key, ← part value)
  | _ => throw .malformed

/-- What a collection holds, by its type. -/
def filling (n : Nat) : Builder Filling := do
  match (← get).nodes.tag n with
  | .seq => return .items (← (← items n).mapM part)
  | .omap | .pairs => return .pairs (← (← items n).mapM pair)
  | .map => return .entries (← entries n)
  | .set => return .members ((← entries n).map (·.1))
  | _ => throw .malformed

/-- Fills the collections that wait, and those that are met by that. Every node waits once at most. -/
def fillAll : (fuel : Nat) → Builder Unit
  | 0 => return ()
  | fuel + 1 => do
    match (← get).waiting with
    | [] => return ()
    | n :: rest =>
      modify fun b => { b with waiting := rest }
      let new ← filling n
      modify fun b => { b with fillings := (n, new) :: b.fillings }
      fillAll fuel

end Builder

namespace Filling

def isMapping : Filling → Bool
  | entries _ => true
  | _ => false

end Filling

namespace Part

/-- The value of a part within the given collections. -/
def unfold (fillings : List (Nat × Filling)) (outer : List Nat) : (fuel : Nat) → Part → Value
  | _, value v => v
  | 0, collection _ => .null
  | fuel + 1, collection n =>
    let inside := unfold fillings (n :: outer) fuel
    match fillings.lookup n with
    | none => .null
    | some filling =>
      if outer.contains n then .inner filling.isMapping
      else
        match filling with
        | .items parts => .list (parts.map inside)
        | .pairs parts => .list (parts.map fun (k, v) => .tuple [inside k, inside v])
        | .members values => .setOfKeys values
        | .entries parts => .mapping (parts.map fun (k, v) => (k, inside v))

end Part

namespace Graph

/-- The value of a document. The values in an outermost mapping are unfolded one by one: each of them
may hold the whole again. -/
def value (g : Graph) : Except Fault Value := do
  let (root, b) ← (do
    let root ← Builder.part g.root
    Builder.fillAll (g.nodes.size + 1)
    return root : Builder Part).run { nodes := g.nodes }
  let unfold := Part.unfold b.fillings [] (g.nodes.size + 1)
  match root with
  | .collection n =>
    match b.fillings.lookup n with
    | some (.entries parts) => return .mapping (parts.map fun (k, v) => (k, unfold v))
    | _ => return unfold root
  | .value v => return v

end Graph

/-- The value of a text, which a fault may cut off. -/
def load (text : List Char) (cutOff : Option Fault) : Except Fault Value := do
  match ← Graph.ofTokens (Tokens.ofText text cutOff) with
  | none => return .null
  | some g => g.value

end RouteInventory.Yaml
