import RouteInventory.Json.Writer
import RouteInventory.Value.Basic

/-!
# The inventory

What an extraction finds: the routes, how the application's addresses carry them, and the counts by
kind of evidence. `Inventory.record` is its complete record as JSON data.
-/

namespace RouteInventory

/-- How the addresses of an application carry its routes. -/
inductive RoutingMode
  | hash
  | html5
deriving DecidableEq, Repr

namespace RoutingMode

def name : RoutingMode → String
  | hash => "Hash"
  | html5 => "HTML5"

/-- The mode as a value. -/
def value (mode : RoutingMode) : Value :=
  let memberName := match mode with
    | hash => "HASH"
    | html5 => "HTML5"
  .member ⟨"RoutingMode", memberName, .text mode.name⟩

/-- What stands in front of a route in an address. -/
def urlPrefix : RoutingMode → String
  | hash => "#/"
  | html5 => "/"

/-- The mode of addresses that begin in a certain way. -/
def ofUrlPrefix (start : String) : RoutingMode := if start = "#/" then hash else html5

theorem ofUrlPrefix_urlPrefix (mode : RoutingMode) : ofUrlPrefix mode.urlPrefix = mode := by
  cases mode <;> decide

end RoutingMode

/-- The number of routes by kind of evidence before filtering, the number of different ones, the
number of those left, and the number of routing files. -/
structure Statistics where
  routingModules : Int := 0
  htmlFiles : Int := 0
  tsFiles : Int := 0
  total : Int := 0
  unique : Int := 0
  routingFiles : Int := 0
deriving DecidableEq, Repr

structure Inventory where
  routes : List String
  urlPrefix : String
  statistics : Statistics
  generatedAt : String
  trace : List String
  routingFiles : List String
deriving DecidableEq, Repr

namespace Statistics

/-- The counts in the complete record. -/
def record (s : Statistics) : Json :=
  .object [("routingModules", .int s.routingModules), ("htmlFiles", .int s.htmlFiles),
    ("tsFiles", .int s.tsFiles), ("total", .int s.total)]

/-- All counts, by name. -/
def value (s : Statistics) : Value :=
  .record "ExtractionStats" [("routing_modules", .int s.routingModules),
    ("html_files", .int s.htmlFiles), ("ts_files", .int s.tsFiles), ("total", .int s.total),
    ("unique", .int s.unique), ("routing_files", .int s.routingFiles)]

end Statistics

namespace Inventory

def routingMode (i : Inventory) : RoutingMode := .ofUrlPrefix i.urlPrefix

/-- The addresses of the routes. -/
def fullUrls (i : Inventory) : List String := i.routes.map (i.urlPrefix ++ ·)

/-- The complete record. -/
def record (i : Inventory) : Json :=
  .object [
    ("metadata", .object [
      ("totalRoutes", .int i.routes.length),
      ("routingMode", .text i.routingMode.name),
      ("generatedAt", .text i.generatedAt),
      ("stats", i.statistics.record)]),
    ("routes", .strings i.routes),
    ("fullUrls", .strings i.fullUrls)]

/-- The inventory itself as a value, by name. -/
def value (i : Inventory) : Value :=
  let texts (items : List String) : Value := .list (items.map .text)
  .record "ExtractionResult" [("routes", texts i.routes), ("hash_prefix", .text i.urlPrefix),
    ("stats", i.statistics.value), ("generated_at", .text i.generatedAt),
    ("trace", texts i.trace), ("routing_files", texts i.routingFiles)]

end Inventory

end RouteInventory
