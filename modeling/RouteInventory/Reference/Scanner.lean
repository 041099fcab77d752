import RouteInventory.Reference.Normal
import RouteInventory.Text.Search
import RouteInventory.Value.Basic

/-!
# Reference scanners

Two kinds of sources refer to routes: templates by `routerLink` attributes, scripts by calls that
navigate. A scanner finds every reference in a text by its patterns, one pattern after another, and
keeps those whose route is literal: not empty and free of the markers of interpolated text.
-/

namespace RouteInventory

open Text Script

namespace Reference

/-- Where a route was found. -/
inductive Source
  | routingModule
  | html
  | typescript
deriving DecidableEq, Repr

namespace Source

def name : Source → String
  | routingModule => "routing_module"
  | html => "html"
  | typescript => "typescript"

/-- A kind of source as a value. -/
def value (s : Source) : Value :=
  .member ⟨"RouteSource", s.name.map Char.toUpper, .text s.name⟩

end Source

end Reference

/-- A route found in a file, with the line on which the reference begins. -/
structure Reference where
  route : String
  path : String
  line : Nat
  source : Reference.Source
deriving DecidableEq, Repr

namespace Reference

/-- What a kind of source is searched for. -/
structure Scanner where
  source : Source
  includeSuffixes : List String
  excludeSuffixes : List String
  patterns : List (Pattern (List Char))
  rejectedMarkers : List String

def isDoubleOrSingle (c : Char) : Bool := c = '"' || c = '\''

/-- A literal without line feeds at the beginning of a text. -/
def lineLiteral? (isMark : Char → Bool) : List Char → Option (List Char × List Char)
  | [] => none
  | mark :: rest => if isMark mark then bodyUpTo mark (· = '\n') rest else none

/-- A literal without quotes inside, in other quotes than the given one. -/
def innerLiteral? (outer : Char) : List Char → Option (List Char × List Char)
  | [] => none
  | mark :: rest =>
    if mark != outer && isQuote mark then bodyUpTo mark isQuote rest else none

/-- The text behind a name and an equals sign. -/
def afterAssignment? (name : String) (text : List Char) : Option (List Char) := do
  let rest ← after? name.toList text
  let value ← after? ['='] (skipBlanks rest)
  return skipBlanks value

/-- The opening quote of an attribute and the text behind it and its blanks. -/
def attributeValue? : List Char → Option (Char × List Char)
  | mark :: rest => if isDoubleOrSingle mark then some (mark, skipBlanks rest) else none
  | [] => none

/-- The plain attribute: `routerLink="/reports"`. -/
def plainLink : Pattern (List Char) := fun before text =>
  if before.any fun c => c = '[' || isWord c || c = '.' || c = '-' then none
  else do
    let value ← afterAssignment? "routerLink" text
    lineLiteral? isDoubleOrSingle value

/-- The attribute bound to a literal: `[routerLink]="'/reports'"`. -/
def boundLiteral : Pattern (List Char) := fun _ text => do
  let value ← afterAssignment? "[routerLink]" text
  let (outer, body) ← attributeValue? value
  let (route, rest) ← innerLiteral? outer body
  let after ← after? [outer] (skipBlanks rest)
  return (route, after)

/-- The attribute bound to an array that begins with a literal: `[routerLink]="['/reports', id]"`. -/
def boundArray : Pattern (List Char) := fun _ text => do
  let value ← afterAssignment? "[routerLink]" text
  let (outer, body) ← attributeValue? value
  let items ← after? ['['] body
  innerLiteral? outer (skipBlanks items)

/-- A call with an array that begins with a literal: `.navigate(['reports', id])`. -/
def navigateCall : Pattern (List Char) := fun _ text => do
  let arguments ← after? ".navigate(".toList text
  let items ← after? ['['] (skipBlanks arguments)
  lineLiteral? isQuote (skipBlanks items)

/-- A call with an address: `.navigateByUrl('/reports')`. -/
def navigateByUrlCall : Pattern (List Char) := fun _ text => do
  let arguments ← after? ".navigateByUrl(".toList text
  lineLiteral? isQuote (skipBlanks arguments)

/-- Templates: values with interpolation or calls in them are not literal. -/
def templates : Scanner where
  source := .html
  includeSuffixes := [".html"]
  excludeSuffixes := []
  patterns := [plainLink, boundLiteral, boundArray]
  rejectedMarkers := ["\x7b\x7b", "("]

/-- Scripts other than tests: template literals with placeholders are not literal. -/
def navigation : Scanner where
  source := .typescript
  includeSuffixes := [".ts"]
  excludeSuffixes := [".spec.ts"]
  patterns := [navigateCall, navigateByUrlCall]
  rejectedMarkers := ["$\x7b", String.singleton backquote]

namespace Scanner

/-- Whether a route is literal. -/
def accepts (s : Scanner) (route : List Char) : Bool :=
  !route.isEmpty && !s.rejectedMarkers.any fun marker => occurs marker.toList route

theorem accepts_iff_not_infix {s : Scanner} {route : List Char} :
    s.accepts route = true ↔ route ≠ [] ∧ ∀ marker ∈ s.rejectedMarkers, ¬ marker.toList <:+: route := by
  simp only [accepts, Bool.and_eq_true, Bool.not_eq_true', List.isEmpty_eq_false_iff, List.any_eq_false,
    occurs_iff]

/-- The normal routes of all matches in a text, by pattern and then by place. -/
def sightings (s : Scanner) (text : List Char) : List (Match (List Char)) :=
  s.patterns.flatMap fun pattern =>
    (allMatches pattern text).map fun m => { m with captured := normalize m.captured }

/-- The references in a text from the given file. -/
def scanText (s : Scanner) (text : List Char) (path : String) : List Reference :=
  ((s.sightings text).filter fun m => s.accepts m.captured).map fun m =>
    ⟨String.ofList m.captured, path, m.line, s.source⟩

theorem scanText_eq_filterMap (s : Scanner) (text : List Char) (path : String) :
    s.scanText text path = (s.sightings text).filterMap fun m =>
      if s.accepts m.captured then some ⟨String.ofList m.captured, path, m.line, s.source⟩ else none := by
  rw [scanText, ← List.filterMap_eq_map, List.filterMap_filter]
  rfl

/-- The routes in a text that are not literal. -/
def skipped (s : Scanner) (text : List Char) : List String :=
  ((s.sightings text).filter fun m => !m.captured.isEmpty && !s.accepts m.captured).map fun m =>
    String.ofList m.captured

end Scanner

end Reference

end RouteInventory
