import RouteInventory.FileSystem.Canonical
import RouteInventory.FileSystem.Reading
import RouteInventory.Routing.Module

/-!
# The module cache

Routing modules by their canonical locations, each read and parsed at most once. A module that could
not be read or parsed is not kept. `reads` counts the files read, parsed or not.
-/

namespace RouteInventory.Routing

/-- Why a routing module cannot be loaded. -/
inductive LoadFault
  | unreadable (fault : ReadFault)
  | unbalanced (source : Path) (fault : Script.BracketFault)
  | linkLoop (place : Location)
deriving DecidableEq, Repr

namespace LoadFault

def message : LoadFault → String
  | unreadable fault => fault.message
  | unbalanced source fault => s!"{source}:{fault.line}: {fault.imbalance.message}"
  | linkLoop place => s!"Symlink loop from {String.ofList (Text.quoted place.text.toList)}"

end LoadFault

/-- A module that was loaded: its routes, and the dynamic loads met if it was parsed just now. -/
structure Loaded where
  routes : List Declaration
  parsed : Option (List String)

structure ModuleCache where
  entries : List (Location × List Declaration) := []
  reads : Nat := 0

namespace ModuleCache

def size (cache : ModuleCache) : Nat := cache.entries.length

def contains (cache : ModuleCache) (l : Location) : Bool := (cache.entries.lookup l).isSome

/-- The module at a canonical location, from the cache or else from its file. -/
def loadAt (cache : ModuleCache) (fs : FileSystem) (l : Location) :
    ModuleCache × Except LoadFault Loaded :=
  match cache.entries.lookup l with
  | some routes => (cache, .ok ⟨routes, none⟩)
  | none =>
    match fs.readText l.path with
    | .error fault => (cache, .error (.unreadable fault))
    | .ok text =>
      -- a file counts as read also if its brackets turn out not to match
      let cache := { cache with reads := cache.reads + 1 }
      match parseModule text with
      | .error fault => (cache, .error (.unbalanced l.path fault))
      | .ok routes =>
        ({ cache with entries := cache.entries ++ [(l, routes)] },
          .ok ⟨routes, some (dynamicLoads text)⟩)

/-- The module that a path denotes, and its canonical location. -/
def load (cache : ModuleCache) (fs : FileSystem) (p : Path) :
    ModuleCache × Except LoadFault (Location × Loaded) :=
  match fs.canonical p with
  | .error place => (cache, .error (.linkLoop place))
  | .ok l =>
    let (cache, result) := cache.loadAt fs l
    (cache, result.map (l, ·))

/-- Whether the module that a path denotes is in the cache. -/
def containsPath (cache : ModuleCache) (fs : FileSystem) (p : Path) : Except LoadFault Bool :=
  match fs.canonical p with
  | .error place => .error (.linkLoop place)
  | .ok l => .ok (cache.contains l)

end ModuleCache

end RouteInventory.Routing
