import RouteInventory.Text.Blank
import RouteInventory.Text.Search

/-!
# Reconciliation

The routes of the three kinds of evidence are joined into one list: each once, in increasing order
by code point, and only those that can be navigated to.
-/

namespace RouteInventory

open Text

/-- Screens of the authentication flow: reachable, but no part of the inventory. -/
def defaultExcluded : List String := ["Login", "Renewpassword", "Forgotpassword"]

/-- Parts of a route with which it cannot be navigated to as it stands. -/
def rejectedParts : List String := ["**", ":", "undefined", "null"]

/-- Whether a route can be navigated to and is not excluded. -/
def isNavigable (excluded : List String) (route : String) : Bool :=
  !(strip route.toList).isEmpty && !rejectedParts.any (fun part => occurs part.toList route.toList) &&
    !excluded.contains route

/-- Adds a route to an increasing list unless it is there. -/
def insertRoute (route : String) : List String → List String
  | [] => [route]
  | other :: rest =>
    if route < other then route :: other :: rest
    else if route = other then other :: rest
    else other :: insertRoute route rest

/-- The routes of a list, each once and in increasing order. -/
def increasing (routes : List String) : List String := routes.foldr insertRoute []

/-- The final routes and the number of routes before filtering, by kind of evidence and distinct. -/
structure Reconciliation where
  routes : List String
  routingModules : Nat
  htmlFiles : Nat
  tsFiles : Nat
  unique : Nat
deriving DecidableEq, Repr

namespace Reconciliation

def total (r : Reconciliation) : Nat := r.routes.length

end Reconciliation

/-- Joins the routes of the tree, of the templates and of the navigation calls. -/
def reconcile (excluded tree html ts : List String) : Reconciliation :=
  let unique := increasing (tree ++ html ++ ts)
  { routes := unique.filter (isNavigable excluded)
    routingModules := tree.length
    htmlFiles := html.length
    tsFiles := ts.length
    unique := unique.length }

end RouteInventory
