/-!
# Route declarations

A routing module declares a forest of routes. A route may name another module to be loaded lazily
below it, and may list children inline.
-/

namespace RouteInventory.Routing

/-- A route object: its raw path segment, the module loaded below it, the line of its opening brace
and the routes listed inside it. -/
structure Declaration where
  path : String
  loadChildren : Option String
  line : Nat
  children : List Declaration
deriving Repr, BEq, Inhabited

namespace Declaration

def isLazy (d : Declaration) : Bool := d.loadChildren.isSome

end Declaration

/-- The path of a segment declared under a parent; the empty parent adds nothing. -/
def joinPath (parent segment : String) : String :=
  if parent = "" then segment else parent ++ "/" ++ segment

end RouteInventory.Routing
