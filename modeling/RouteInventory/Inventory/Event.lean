import RouteInventory.Inventory.Record
import RouteInventory.Reference.Scan
import RouteInventory.Routing.Tree

/-!
# Events

What an extraction reports while it runs, one line for each event.
-/

namespace RouteInventory

inductive Event
  | mode (mode : RoutingMode)
  | step (step : Routing.Step)
  | walked (routes modules : Nat)
  | rootMissing (root : Path)
  | skipped (route file : String)
  | scanned (source : Reference.Source) (routes files : Nat)
  | reconciled (unique total : Nat)
deriving DecidableEq, Repr

/-- The part of the program that an event comes from. -/
inductive Channel
  | extraction
  | routeTree
  | modules
  | resolver
  | references
  | discovery
deriving DecidableEq, Repr

namespace Channel

def name : Channel → String
  | extraction => "route_audit.api"
  | routeTree => "route_audit.analyzers.route_tree"
  | modules => "route_audit.analyzers.module_parser"
  | resolver => "route_audit.analyzers.module_resolver"
  | references => "route_audit.analyzers.references"
  | discovery => "route_audit.core.discover"

end Channel

inductive Level
  | debug
  | info
deriving DecidableEq, Repr

def Level.name : Level → String
  | debug => "DEBUG"
  | info => "INFO"

/-- A line of the log. -/
structure LogEntry where
  level : Level
  channel : Channel
  message : String
deriving DecidableEq, Repr

def LogEntry.line (e : LogEntry) : String := s!"{e.level.name} {e.channel.name}: {e.message}\n"

def quotedText (s : String) : String := String.ofList (Text.quoted s.toList)

namespace Event

/-- A step with a line in the trace is logged by that line. -/
def stepEntry (s : Routing.Step) : LogEntry :=
  match s with
  | .dynamicLoad value => ⟨.debug, .modules, s!"loadChildren without a static import: {value}"⟩
  | .parse module count =>
    ⟨.debug, .modules, s!"Parsed {count} route declarations from {module}"⟩
  | .resolve name found => ⟨.debug, .resolver, s!"Resolved {quotedText name} -> {found}"⟩
  | .unresolved name source =>
    ⟨.debug, .resolver, s!"No routing module for {quotedText name} (from {source})"⟩
  | .scan .. | .declare .. | .load .. => ⟨.debug, .routeTree, s.traceLine?.getD ""⟩

def entry : Event → LogEntry
  | mode m => ⟨.info, .extraction, s!"Routing mode: {m.name}"⟩
  | step s => stepEntry s
  | walked routes modules =>
    ⟨.info, .extraction, s!"Routing modules: {routes} routes from {modules} modules"⟩
  | rootMissing root => ⟨.debug, .discovery, s!"Discovery root {root} does not exist"⟩
  | skipped route file =>
    ⟨.debug, .references, s!"Skipping non-literal route {quotedText route} in {file}"⟩
  | scanned source routes files =>
    ⟨.info, .references, s!"{source.name}: {routes} routes in {files} files"⟩
  | reconciled unique total => ⟨.info, .extraction, s!"Routes: {unique} unique, {total} valid"⟩

end Event

end RouteInventory
