import RouteInventory.Yaml.Fault
import RouteInventory.Yaml.Graph

/-!
# Merges

A merge key gives a mapping the entries of another one, or of several, the last of them first; they
stand in front of the mapping's own entries. Merges are done inside out, and a mapping that is to be
merged into itself gives the entries that are left of it.
-/

namespace RouteInventory.Yaml

abbrev Merging := StateT Nodes (Except Fault)

namespace Merging

/-- The entries in front of the first merge, what it merges, and the entries behind it. -/
def splitMerge (nodes : Nodes) :
    List (Nat × Nat) → Option (List (Nat × Nat) × Nat × List (Nat × Nat))
  | [] => none
  | (key, value) :: rest =>
    if nodes.tag key = .merge then some ([], value, rest)
    else (splitMerge nodes rest).map fun (before, merged, after) =>
      ((key, value) :: before, merged, after)

/-- Lets equals signs among keys stand for themselves. -/
def settleKeys (nodes : Nodes) (entries : List (Nat × Nat)) : Nodes :=
  entries.foldl (fun nodes (key, _) =>
    if nodes.tag key = .value then nodes.setTag key .str else nodes) nodes

mutual

/-- Does the merges of a mapping. -/
def flatten (n : Nat) : (fuel : Nat) → Merging Unit
  | 0 => throw .malformed
  | fuel + 1 => do
    let merged ← gather n fuel
    modify fun nodes => nodes.setContent n (.mapping (merged ++ nodes.entries n))

/-- Takes the merges out of a mapping and answers the entries that they give. -/
def gather (n : Nat) : (fuel : Nat) → Merging (List (Nat × Nat))
  | 0 => throw .malformed
  | fuel + 1 => do
    let nodes ← get
    match splitMerge nodes (nodes.entries n) with
    | none =>
      set (settleKeys nodes (nodes.entries n))
      return []
    | some (before, merged, after) =>
      set (nodes.setContent n (.mapping (before ++ after)))
      let first ← expand merged fuel
      return first ++ (← gather n fuel)

/-- The entries of a mapping, or of the mappings in a sequence, with their own merges done. -/
def expand (n : Nat) : (fuel : Nat) → Merging (List (Nat × Nat))
  | 0 => throw .malformed
  | fuel + 1 => do
    match (← get).content? n with
    | some (.mapping _) =>
      flatten n fuel
      return (← get).entries n
    | some (.sequence items) => expandItems items fuel
    | _ => throw .malformed

def expandItems : List Nat → (fuel : Nat) → Merging (List (Nat × Nat))
  | _, 0 => throw .malformed
  | [], _ => return []
  | item :: rest, fuel + 1 => do
    if !(← get).isMapping item then throw .malformed
    flatten item fuel
    let own := (← get).entries item
    return (← expandItems rest fuel) ++ own

end

/-- The fuel for one mapping: every merge is taken out before it is done. -/
def fuelFor (nodes : Nodes) : Nat := (nodes.entryCount + 1) * (nodes.partCount + 4) + 1

end Merging

/-- The nodes with the merges of a mapping done. -/
def Nodes.flatten (nodes : Nodes) (n : Nat) : Except Fault Nodes := do
  let (_, nodes) ← (Merging.flatten n (Merging.fuelFor nodes)).run nodes
  return nodes

end RouteInventory.Yaml
