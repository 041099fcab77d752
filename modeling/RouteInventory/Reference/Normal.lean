import RouteInventory.Script.Literal
import RouteInventory.Text.Blank

/-!
# Normal references

A route reference as it stands in a source is decorated: quotes and blanks around it, leading
slashes, the marker of hash-based addresses, a fragment behind it. `normalize` takes the decoration
away.
-/

namespace RouteInventory.Reference

open Text

/-- Quotes and plain blanks at the edges of a captured text. -/
def isEdgeJunk (c : Char) : Bool :=
  Script.isQuote c || c = ' ' || c = '\t' || c = '\r' || c = '\n'

def isSlash (c : Char) : Bool := c = '/'

/-- A text without the hash marker at its beginning. -/
def dropHashMarker : List Char → List Char
  | '#' :: '/' :: rest => rest
  | '#' :: rest => rest
  | text => text

/-- A text without its fragment. -/
def dropFragment (text : List Char) : List Char := text.takeWhile (· != '#')

/-- The route that a captured text refers to. -/
def normalize (raw : List Char) : List Char :=
  strip (dropFragment (trimStart isSlash (dropHashMarker (trimStart isSlash (trim isEdgeJunk raw)))))

/-- The route that a text refers to. -/
def normalizeText (raw : String) : String := String.ofList (normalize raw.toList)

end RouteInventory.Reference
