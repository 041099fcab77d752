import RouteInventory.FileSystem.Unvisited
import RouteInventory.Routing.Cache
import RouteInventory.Routing.Resolver

/-!
# The route tree

A walk over the routing modules from a root module, depth first and in source order. It collects the
full paths of the routes and the steps it takes. A route that loads a module is represented by that
module's routes, or by itself if there are none; a module that would load one of the modules it is
being loaded from is a cycle. The walk ends because it never enters a file that it is inside of.
-/

namespace RouteInventory.Routing

/-- One step of a walk. -/
inductive Step
  | scan (depth : Nat) (module : Location) (shown : String)
  | dynamicLoad (value : String)
  | parse (module : Location) (count : Nat)
  | declare (depth : Nat) (segment full : String)
  | resolve (name : String) (found : Path)
  | unresolved (name : String) (source : Location)
  | load (depth : Nat)
deriving DecidableEq, Repr

namespace Step

def indent (depth : Nat) : String := String.ofList (List.replicate (2 * depth) ' ')

/-- The line of a step in the trace, if it has one. -/
def traceLine? : Step → Option String
  | scan depth _ shown => some s!"{indent depth}📂 Scanning: {shown}"
  | declare depth segment full => some s!"{indent depth}  ├─ {segment} → {full}"
  | load depth => some s!"{indent depth}  │  └─ Loading children..."
  | _ => none

def scanned? : Step → Option Location
  | scan _ module _ => some module
  | _ => none

end Step

/-- Why a walk stops early. -/
inductive WalkFault
  | load (fault : LoadFault)
  | cycle (modules : List Location)
deriving DecidableEq, Repr

namespace WalkFault

def message : WalkFault → String
  | load fault => fault.message
  | cycle modules =>
    "Routing module cycle detected: " ++ String.intercalate " -> " (modules.map Location.text)

end WalkFault

/-- A stretch of a walk: what it did and found, the cache it left, and the fault that stopped it. -/
structure Walk where
  steps : List Step
  routes : List String
  cache : ModuleCache
  fault : Option WalkFault

namespace Walk

/-- The stretch that does nothing. -/
def rest (cache : ModuleCache) : Walk := ⟨[], [], cache, none⟩

/-- One stretch after another; the second is not begun after a fault. -/
def andThen (first : Walk) (second : ModuleCache → Walk) : Walk :=
  match first.fault with
  | some _ => first
  | none =>
    let next := second first.cache
    { next with steps := first.steps ++ next.steps, routes := first.routes ++ next.routes }

/-- A stretch after one step. -/
def after (step : Step) (walk : Walk) : Walk := { walk with steps := step :: walk.steps }

/-- A stretch that is represented by a path when it found no route itself. -/
def orItself (full : String) (walk : Walk) : Walk :=
  if walk.fault.isNone ∧ walk.routes = [] ∧ full ≠ "" then { walk with routes := [full] } else walk

end Walk

/-- Where a walk looks references up and how it names modules. -/
structure Guide extends Layout where
  displayRoot : Path
deriving Repr

/-- The name of a module in the trace. -/
def Guide.shown (guide : Guide) (fs : FileSystem) (module : Location) : String :=
  (module.path.relativeTo fs.workingDir guide.displayRoot).text

/-- Loads a module: the steps taken, the cache left and the routes declared. -/
def Guide.enter (guide : Guide) (fs : FileSystem) (module : Location) (depth : Nat)
    (cache : ModuleCache) : List Step × ModuleCache × Except LoadFault (List Declaration) :=
  let scan := Step.scan depth module (guide.shown fs module)
  match cache.loadAt fs module with
  | (cache, .error fault) => ([scan], cache, .error fault)
  | (cache, .ok ⟨routes, none⟩) => ([scan], cache, .ok routes)
  | (cache, .ok ⟨routes, some dynamic⟩) =>
    (scan :: dynamic.map .dynamicLoad ++ [.parse module routes.length], cache, .ok routes)

/-- The modules on a cycle: those from the repeated module on, outermost first, and the module
again. The active modules come innermost first. -/
def cycleOf (active : List Location) (module : Location) : List Location :=
  active.reverse.dropWhile (· != module) ++ [module]

/-- Visits declarations of the innermost active module below a parent path. -/
def Guide.visit (guide : Guide) (fs : FileSystem) (active : List Location) (source : Location)
    (parent : String) (depth : Nat) (decls : List Declaration) (cache : ModuleCache) : Walk :=
  match decls with
  | [] => .rest cache
  | d :: others =>
    have : sizeOf d.children < sizeOf (d :: others) := by
      cases d
      simp only [List.cons.sizeOf_spec, Declaration.mk.sizeOf_spec]
      omega
    have : sizeOf others < sizeOf (d :: others) := by
      simp only [List.cons.sizeOf_spec]
      omega
    let full := if d.path = "" then parent else joinPath parent d.path
    let itself : Walk := ⟨[], if full = "" then [] else [full], cache, none⟩
    let below : Walk :=
      match d.loadChildren with
      | none => itself
      | some reference =>
        match guide.resolve fs reference source.path with
        | .empty => itself
        -- what is not found is noted, and does not stop the walk
        | .missing name => itself.after (.unresolved name source)
        | .found name path file hfile =>
          let loaded : Walk :=
            if hactive : file ∈ active then ⟨[], [], cache, some (.cycle (cycleOf active file))⟩
            else
              have : unvisited fs.files (file :: active) < unvisited fs.files active :=
                unvisited_cons_lt hfile hactive
              match guide.enter fs file (depth + 1) cache with
              | (steps, cache, .error fault) => ⟨steps, [], cache, some (.load fault)⟩
              | (steps, cache, .ok decls) =>
                Walk.andThen ⟨steps, [], cache, none⟩
                  (guide.visit fs (file :: active) file full (depth + 1) decls)
          ((loaded.orItself full).after (.load depth)).after (.resolve name path)
    -- the inline children are visited also if a module was loaded
    ((below.after (.declare depth d.path full)).andThen
      (guide.visit fs active source full (depth + 1) d.children)).andThen
      (guide.visit fs active source parent depth others)
termination_by (unvisited fs.files active, sizeOf decls)

/-- The walk over a root module at a canonical location. -/
def Guide.walk (guide : Guide) (fs : FileSystem) (root : Location) (cache : ModuleCache) : Walk :=
  match guide.enter fs root 0 cache with
  | (steps, cache, .error fault) => ⟨steps, [], cache, some (.load fault)⟩
  | (steps, cache, .ok decls) =>
    Walk.andThen ⟨steps, [], cache, none⟩ (guide.visit fs [root] root "" 0 decls)

/-- The routes of an application in the order of the walk, the trace of the walk, and the modules in
the order in which they were first entered. -/
structure RouteTree where
  routes : List String
  trace : List String
  modules : List Location
deriving Repr

namespace Walk

def tree (walk : Walk) : RouteTree where
  routes := walk.routes
  trace := walk.steps.filterMap Step.traceLine?
  modules := (walk.steps.filterMap Step.scanned?).eraseDups

end Walk

/-- The walk from the root module that a path denotes. -/
def Guide.build (guide : Guide) (fs : FileSystem) (root : Path) (cache : ModuleCache) : Walk :=
  match fs.canonical root with
  | .error place => ⟨[], [], cache, some (.load (.linkLoop place))⟩
  | .ok l => guide.walk fs l cache

end RouteInventory.Routing
