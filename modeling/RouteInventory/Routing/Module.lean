import RouteInventory.Routing.Declaration
import RouteInventory.Routing.Property
import RouteInventory.Script.Span

/-!
# Routing modules

The routes that a routing module declares, read from its text without parsing the language: every
brace span whose own text has a `path` with a literal value is a route object. Routes are sought
through containers that are no routes; inside a route, only in the lists under its `children` key.
-/

namespace RouteInventory.Routing

open Script Text

/-- The own text of a span before the span at an offset. -/
def ownBefore (own : List Char) (outer : Span) (offset : Nat) : List Char :=
  own.take (offset - (outer.start + 1))

mutual

/-- The routes among spans of a text, in source order. -/
def declarationsOf (text : List Char) : List Span → List Declaration
  | [] => []
  | span :: rest => declarationsIn text span ++ declarationsOf text rest

/-- The routes of one span: the span itself if it is a route, else those inside it. -/
def declarationsIn (text : List Char) : Span → List Declaration
  | ⟨kind, start, stop, children⟩ =>
    let span : Span := ⟨kind, start, stop, children⟩
    let own := span.ownText text
    match if kind = .brace then pathValue? own else none with
    -- brackets that are no route are passed over to the routes inside them
    | none => declarationsOf text children
    | some path =>
      [{ path := String.ofList path
         loadChildren :=
          ((loadChildrenText? own).bind moduleReference?).map String.ofList
         line := lineOf text start
         children := inlineChildren text span own children }]

/-- The routes in the lists under the `children` keys of a route object. -/
def inlineChildren (text : List Char) (outer : Span) (own : List Char) : List Span → List Declaration
  | [] => []
  | ⟨kind, start, _, children⟩ :: rest =>
    (if kind = .square ∧ endsInChildrenKey (ownBefore own outer start) then
      declarationsOf text children
    else []) ++ inlineChildren text outer own rest

end

/-- The top-level routes of a routing module. -/
def parseModule (text : List Char) : Except BracketFault (List Declaration) :=
  (spans (stripComments text)).map (declarationsOf (stripComments text))

/-- Whether a routing module asks for hash-based addresses. -/
def usesHashRouting (text : List Char) : Bool := hasHashFlag (stripComments text)

mutual

/-- The values of `loadChildren` keys that name no module, innermost routes first. -/
def dynamicLoadsOf (text : List Char) : List Span → List String
  | [] => []
  | span :: rest => dynamicLoadsIn text span ++ dynamicLoadsOf text rest

def dynamicLoadsIn (text : List Char) : Span → List String
  | ⟨kind, start, stop, children⟩ =>
    let span : Span := ⟨kind, start, stop, children⟩
    let own := span.ownText text
    match if kind = .brace then pathValue? own else none with
    | none => dynamicLoadsOf text children
    | some _ =>
      inlineDynamicLoads text span own children ++
        match loadChildrenText? own with
        | none => []
        | some value =>
          if (moduleReference? value).isSome then [] else [String.ofList (strip value)]

def inlineDynamicLoads (text : List Char) (outer : Span) (own : List Char) : List Span → List String
  | [] => []
  | ⟨kind, start, _, children⟩ :: rest =>
    (if kind = .square ∧ endsInChildrenKey (ownBefore own outer start) then
      dynamicLoadsOf text children
    else []) ++ inlineDynamicLoads text outer own rest

end

/-- The `loadChildren` values of a routing module that name no module. -/
def dynamicLoads (text : List Char) : List String :=
  match spans (stripComments text) with
  | .ok roots => dynamicLoadsOf (stripComments text) roots
  | .error _ => []

end RouteInventory.Routing
