import RouteInventory.Config.Basic
import RouteInventory.Inventory.Event
import RouteInventory.Inventory.RoutingFiles

/-!
# Extraction

The inventory of an application: the routes that its routing modules declare, joined with those that
its templates and scripts refer to. Every run starts with an empty module cache. What was reported
before a fault stays reported.
-/

namespace RouteInventory

/-- Why there is no inventory. -/
inductive ExtractionFault
  | rootModuleMissing (path : Path)
  | rootUnreadable (fault : ReadFault)
  | walk (fault : Routing.WalkFault)
deriving DecidableEq, Repr

namespace ExtractionFault

def message : ExtractionFault → String
  | rootModuleMissing path => s!"root routing module not found: {path}"
  | rootUnreadable fault => fault.message
  | walk fault => fault.message

end ExtractionFault

structure Extraction where
  events : List Event
  outcome : Except ExtractionFault Inventory

/-- The time that a deterministic inventory bears. -/
def fixedTime : String := "2000-01-01T00:00:00+00:00"

namespace Config

/-- The guide for the walk over the routing modules. -/
def guide (c : Config) : Routing.Guide where
  projectRoot := c.projectRoot
  appRoot := c.appDir
  displayRoot := c.projectRoot

/-- The routing files below the sources, as paths from the project root. -/
def routingFiles (c : Config) (fs : FileSystem) : List String :=
  (fs.routingFiles c.appDir c.ignoredDirectories).map fun p =>
    (p.relativeTo fs.workingDir c.projectRoot).text

/-- The events of a search below the sources. -/
def searchEvents (c : Config) (fs : FileSystem) : List Event :=
  if fs.isDirectory c.appDir then [] else [.rootMissing c.appDir]

def scan (c : Config) (fs : FileSystem) (s : Reference.Scanner) : Reference.ScanResult :=
  s.scan fs c.appDir c.ignoredDirectories

/-- The events of a scan below the sources. -/
def scanEvents (c : Config) (fs : FileSystem) (r : Reference.ScanResult) : List Event :=
  c.searchEvents fs ++
    r.files.flatMap (fun file => file.skipped.map fun route => .skipped route file.path) ++
    [.scanned r.source r.routes.length r.files.length]

/-- The routing mode that the root module's text sets. -/
def modeOf (text : List Char) : RoutingMode :=
  if Routing.usesHashRouting text then .hash else .html5

/-- Joins the routes of a finished walk with the references to routes. -/
def finish (c : Config) (fs : FileSystem) (now : String) (mode : RoutingMode)
    (tree : Routing.RouteTree) : List Event × Inventory :=
  let files := c.routingFiles fs
  let html := c.scan fs Reference.templates
  let ts := c.scan fs Reference.navigation
  let found := reconcile c.excludedRoutes tree.routes html.routes ts.routes
  ([.walked tree.routes.length tree.modules.length] ++ c.searchEvents fs ++
      c.scanEvents fs html ++ c.scanEvents fs ts ++ [.reconciled found.unique found.total],
    { routes := found.routes
      urlPrefix := mode.urlPrefix
      statistics :=
        { routingModules := found.routingModules
          htmlFiles := found.htmlFiles
          tsFiles := found.tsFiles
          total := found.total
          unique := found.unique
          routingFiles := files.length }
      generatedAt := if c.deterministic then fixedTime else now
      trace := tree.trace
      routingFiles := files })

/-- Extracts the inventory of the configured application at the given time. -/
def extract (c : Config) (fs : FileSystem) (now : String) : Extraction :=
  if !fs.isFile c.rootModulePath then ⟨[], .error (.rootModuleMissing c.rootModulePath)⟩
  else
    match fs.readText c.rootModulePath with
    | .error fault => ⟨[], .error (.rootUnreadable fault)⟩
    | .ok text =>
      let mode := modeOf text
      let walk := c.guide.build fs c.rootModulePath {}
      let walked := Event.mode mode :: walk.steps.map .step
      match walk.fault with
      -- what was done up to the fault is told all the same
      | some fault => ⟨walked, .error (.walk fault)⟩
      | none =>
        let (events, inventory) := c.finish fs now mode walk.tree
        ⟨walked ++ events, .ok inventory⟩

end Config

end RouteInventory
