import RouteInventory.Yaml.Graph
import RouteInventory.Yaml.Token

/-!
# Structure

The graph of a YAML document, read from its tokens. An alias stands for the node that its anchor
names, which may still be open. Tokens that form more than one document have no graph.
-/

namespace RouteInventory.Yaml

namespace Structure

/-- What is left of a document's tokens and the fault behind them, the meaning of its handles, its
anchors, and the nodes so far. -/
structure State where
  tokens : Tokens
  handles : List (String × String) := []
  anchors : List (String × Nat) := []
  nodes : Nodes := #[]

/-- Reads from the tokens, or fails. -/
abbrev Reader := StateT State (Except Fault)

namespace Reader

def refuse {α : Type} : Reader α := throw .malformed

/-- The next token; at the end of the tokens their fault, if they have one. -/
def peek : Reader (Option Token) := do
  match (← get).tokens with
  | ⟨[], some fault⟩ => throw fault
  | ⟨list, _⟩ => return list.head?

def drop : Reader Unit :=
  modify fun s => { s with tokens := { s.tokens with list := s.tokens.list.tail } }

/-- Whether the next token is one of the given ones. -/
def isNext (ts : List Token) : Reader Bool := return (← peek).any ts.contains

/-- Drops the next token if it is the given one. -/
def accept (t : Token) : Reader Bool := do
  if ← isNext [t] then
    drop
    return true
  else return false

def expect (t : Token) : Reader Unit := do
  if ← accept t then return () else refuse

/-- Adds a node, under an anchor if it has one. No two nodes have the same anchor. -/
def add (anchor : Option String) (node : Node) : Reader Nat := do
  let s ← get
  let number := s.nodes.size
  match anchor with
  | none => set { s with nodes := s.nodes.push node }
  | some name =>
    if (s.anchors.lookup name).isSome then refuse
    else set { s with nodes := s.nodes.push node, anchors := (name, number) :: s.anchors }
  return number

/-- Gives a node its content. -/
def fill (number : Nat) (content : Content) : Reader Unit :=
  modify fun s => { s with nodes := s.nodes.setContent number content }

/-- Adds the scalar that is not written. -/
def addEmpty : Reader Nat := add none ⟨implicitTag "", .scalar ""⟩

/-- A node, or the empty one in front of the given tokens. -/
def orEmpty (ends : List Token) (read : Reader Nat) : Reader Nat := do
  if ← isNext ends then addEmpty else read

def anchor? : Reader (Option String) := do
  match ← peek with
  | some (.anchor name) =>
    drop
    return some name
  | _ => return none

/-- A tag as it is written: its handle, if any, and its suffix. -/
def writtenTag? : Reader (Option (Option String × String)) := do
  match ← peek with
  | some (.tag handle suffix) =>
    drop
    return some (handle, suffix)
  | _ => return none

/-- The address of a tag: its handle replaced by what that stands for. -/
def address : Option (Option String × String) → Reader (Option String)
  | none => return none
  | some (none, suffix) => return some suffix
  | some (some handle, suffix) => do
    match (← get).handles.lookup handle with
    | some start => return some (start ++ suffix)
    | none => refuse

/-- An anchor and a tag's address, in either order. -/
def properties : Reader (Option String × Option String) := do
  match ← anchor? with
  | some name => return (some name, ← address (← writtenTag?))
  | none =>
    let tag ← writtenTag?
    let anchor ← if tag.isSome then anchor? else pure none
    return (anchor, ← address tag)

/-- The node of an anchor. -/
def aliased (name : String) : Reader Nat := do
  match (← get).anchors.lookup name with
  | some number => return number
  | none => refuse

end Reader

/-- The type of a scalar with the address of its tag, if any. The mark alone lets the text decide, and
so does a plain scalar without a tag. -/
def scalarTag (address : Option String) (plain : Bool) (text : String) : Tag :=
  match address with
  | none => if plain then implicitTag text else .str
  | some "!" => implicitTag text
  | some address => .ofAddress address

/-- The type of a collection; the mark alone is no tag. -/
def collectionTag (address : Option String) (default : Tag) : Tag :=
  ((address.filter (· != "!")).map Tag.ofAddress).getD default

/-- Where a node stands, and so which collections may begin there. -/
inductive Place
  | flow
  | block
  | entry
deriving DecidableEq, Repr

open Reader

/-- Adds a sequence with the items that are read after it. -/
def readSequence (anchor tag : Option String) (items : Reader (List Nat)) : Reader Nat := do
  let number ← add anchor ⟨collectionTag tag .seq, .sequence []⟩
  fill number (.sequence (← items))
  return number

/-- Adds a mapping with the entries that are read after it. -/
def readMapping (anchor tag : Option String) (entries : Reader (List (Nat × Nat))) : Reader Nat := do
  let number ← add anchor ⟨collectionTag tag .map, .mapping []⟩
  fill number (.mapping (← entries))
  return number

mutual

/-- The node at the next token. -/
def read (place : Place) : (fuel : Nat) → Reader Nat
  | 0 => refuse
  | fuel + 1 => do
    match ← peek with
    | some (.alias name) =>
      drop
      aliased name
    | _ =>
      let (anchor, tag) ← properties
      readContent place anchor tag fuel

/-- The node behind its anchor and tag. -/
def readContent (place : Place) (anchor tag : Option String) : (fuel : Nat) → Reader Nat
  | 0 => refuse
  | fuel + 1 => do
    match place, ← peek with
    -- a sequence that is the value of a key need not be indented
    | .entry, some .blockEntry => readSequence anchor tag (readEntries fuel)
    | _, some (.scalar plain text) =>
      drop
      add anchor ⟨scalarTag tag plain text, .scalar text⟩
    | _, some .flowSequenceStart =>
      drop
      readSequence anchor tag (readFlowItems true fuel)
    | _, some .flowMappingStart =>
      drop
      readMapping anchor tag (readFlowFields true fuel)
    | .block, some .blockSequenceStart | .entry, some .blockSequenceStart =>
      drop
      readSequence anchor tag (readBlockItems fuel)
    | .block, some .blockMappingStart | .entry, some .blockMappingStart =>
      drop
      readMapping anchor tag (readBlockFields fuel)
    | _, _ =>
      if anchor.isSome || tag.isSome then add anchor ⟨scalarTag tag true "", .scalar ""⟩
      else refuse

/-- The items of a block sequence, up to its end. -/
def readBlockItems : (fuel : Nat) → Reader (List Nat)
  | 0 => refuse
  | fuel + 1 => do
    if ← accept .blockEnd then return []
    expect .blockEntry
    let item ← orEmpty [.blockEntry, .blockEnd] (read .block fuel)
    return item :: (← readBlockItems fuel)

/-- The items of a sequence that is not indented. -/
def readEntries : (fuel : Nat) → Reader (List Nat)
  | 0 => refuse
  | fuel + 1 => do
    if ← accept .blockEntry then
      let item ← orEmpty [.blockEntry, .key, .value, .blockEnd] (read .block fuel)
      return item :: (← readEntries fuel)
    else return []

/-- The fields of a block mapping, up to its end. -/
def readBlockFields : (fuel : Nat) → Reader (List (Nat × Nat))
  | 0 => refuse
  | fuel + 1 => do
    if ← accept .blockEnd then return []
    expect .key
    let ends := [Token.key, .value, .blockEnd]
    let key ← orEmpty ends (read .entry fuel)
    let value ← if ← accept .value then orEmpty ends (read .entry fuel) else addEmpty
    return (key, value) :: (← readBlockFields fuel)

/-- A key behind its mark and its value in a flow collection with the given end. -/
def readFlowField (close : Token) : (fuel : Nat) → Reader (Nat × Nat)
  | 0 => refuse
  | fuel + 1 => do
    let key ← orEmpty [.value, .flowEntry, close] (read .flow fuel)
    let value ←
      if ← accept .value then orEmpty [.flowEntry, close] (read .flow fuel) else addEmpty
    return (key, value)

/-- The items of a flow sequence, up to its end. -/
def readFlowItems (first : Bool) : (fuel : Nat) → Reader (List Nat)
  | 0 => refuse
  | fuel + 1 => do
    if ← accept .flowSequenceEnd then return []
    if !first then expect .flowEntry
    if ← accept .flowSequenceEnd then return []
    let item ←
      if ← accept .key then
        readMapping none none do return [← readFlowField .flowSequenceEnd fuel]
      else read .flow fuel
    return item :: (← readFlowItems false fuel)

/-- The fields of a flow mapping, up to its end. -/
def readFlowFields (first : Bool) : (fuel : Nat) → Reader (List (Nat × Nat))
  | 0 => refuse
  | fuel + 1 => do
    if ← accept .flowMappingEnd then return []
    if !first then expect .flowEntry
    if ← accept .flowMappingEnd then return []
    let field ←
      if ← accept .key then readFlowField .flowMappingEnd fuel
      else do pure (← read .flow fuel, ← addEmpty)
    return field :: (← readFlowFields false fuel)

end

/-- The handles that need no directive. -/
def defaultHandles : List (String × String) := [("!", "!"), ("!!", "tag:yaml.org,2002:")]

/-- Notes the handles that directives declare. A version or handle is declared at most once. -/
def directives (versioned : Bool) : (fuel : Nat) → Reader Unit
  | 0 => refuse
  | fuel + 1 => do
    match ← peek with
    | some (.directive (.version major)) =>
      if versioned || major != 1 then refuse
      else
        drop
        directives true fuel
    | some (.directive (.handle name replacement)) =>
      if ((← get).handles.lookup name).isSome then refuse
      else
        modify fun s => { s with handles := (name, replacement) :: s.handles }
        drop
        directives versioned fuel
    | some (.directive .reserved) =>
      drop
      directives versioned fuel
    | _ => return ()

/-- Whether a token ends a document that has begun. -/
def endsDocument : Option Token → Bool
  | none | some .documentStart | some .documentEnd | some (.directive _) => true
  | _ => false

/-- The outermost node of a document, from its directives on. A mark in front of it is needed only
behind directives, but behind a mark a document may be empty. -/
def readDocument (fuel : Nat) : Reader Nat := do
  let first ← peek
  let opened ← match first with
    | some (.directive _) | some .documentStart => do
      directives false fuel
      expect .documentStart
      pure true
    | _ => pure false
  modify fun s => { s with handles := s.handles ++ defaultHandles }
  if opened && endsDocument (← peek) then addEmpty else read .block fuel

/-- Reads the end of the tokens, behind marks for the end of the document. -/
def readEnd : (fuel : Nat) → Reader Unit
  | 0 => refuse
  | fuel + 1 => do
    if ← accept .documentEnd then readEnd fuel
    else if (← peek).isSome then refuse
    else return ()

/-- The graph of the tokens, if there is a document. -/
def readGraph (fuel : Nat) : Reader (Option Graph) := do
  if (← peek).isNone then return none
  let root ← readDocument fuel
  readEnd fuel
  return some ⟨(← get).nodes, root⟩

end Structure

/-- The graph of a text's tokens, if there is one. -/
def Graph.ofTokens (tokens : Tokens) : Except Fault (Option Graph) :=
  (Structure.readGraph (3 * tokens.list.length + 3)).run' { tokens }

end RouteInventory.Yaml
