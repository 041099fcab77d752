import RouteInventory.Script.Segment

/-!
# Bracket spans

The braces and square brackets of a script that stand in code, outside literals, nest into a tree of
spans. `spans` builds the tree, or tells which bracket is at fault: a closing bracket that does not
match the innermost open one, else the innermost bracket left open at the end.
-/

namespace RouteInventory.Script

inductive Bracket
  | brace
  | square
deriving DecidableEq, Repr

namespace Bracket

def opening : Bracket → Char
  | brace => '\x7b'
  | square => '['

def closing : Bracket → Char
  | brace => '\x7d'
  | square => ']'

end Bracket

/-- A bracketed stretch of a text: the offsets of its two brackets and the spans directly inside. -/
structure Span where
  kind : Bracket
  start : Nat
  stop : Nat
  children : List Span
deriving Repr

/-- What is wrong with the brackets of a text. -/
inductive Imbalance
  | unexpected (kind : Bracket)
  | unclosed (kind : Bracket)
deriving DecidableEq, Repr

namespace Imbalance

def message : Imbalance → String
  | unexpected kind => s!"unexpected '{kind.closing}'"
  | unclosed kind => s!"unclosed '{kind.opening}'"

end Imbalance

/-- An imbalance and the line of the bracket at fault. -/
structure BracketFault where
  line : Nat
  imbalance : Imbalance
deriving DecidableEq, Repr

/-- The characters of code with their offsets. -/
def codeChars (offset : Nat) : List Segment → List (Nat × Char)
  | [] => []
  | .code c :: rest => (offset, c) :: codeChars (offset + 1) rest
  | s :: rest => codeChars (offset + s.text.length) rest

inductive Mark
  | opens (kind : Bracket)
  | closes (kind : Bracket)
deriving DecidableEq, Repr

def Mark.ofChar? (c : Char) : Option Mark :=
  if c = '\x7b' then some (.opens .brace)
  else if c = '[' then some (.opens .square)
  else if c = '\x7d' then some (.closes .brace)
  else if c = ']' then some (.closes .square)
  else none

/-- The brackets in code with their offsets. -/
def marks (text : List Char) : List (Nat × Mark) :=
  (codeChars 0 (segments .bare text)).filterMap fun (offset, c) =>
    (Mark.ofChar? c).map (offset, ·)

/-- A span not closed yet; its children come latest first. -/
structure OpenSpan where
  kind : Bracket
  start : Nat
  children : List Span
deriving Repr

/-- Nests the remaining brackets into the spans read so far: the open ones, innermost first, and the
finished outermost ones, latest first. -/
def nest : (stack : List OpenSpan) → (roots : List Span) → List (Nat × Mark) →
    Except (Nat × Imbalance) (List Span)
  | [], roots, [] => .ok roots.reverse
  | top :: _, _, [] => .error (top.start, .unclosed top.kind)
  | stack, roots, (offset, .opens kind) :: rest => nest (⟨kind, offset, []⟩ :: stack) roots rest
  | [], _, (offset, .closes kind) :: _ => .error (offset, .unexpected kind)
  | top :: below, roots, (offset, .closes kind) :: rest =>
    if top.kind = kind then
      let span : Span := ⟨kind, top.start, offset, top.children.reverse⟩
      match below with
      | [] => nest [] (span :: roots) rest
      | outer :: more => nest ({ outer with children := span :: outer.children } :: more) roots rest
    else .error (offset, .unexpected kind)

/-- The outermost spans of a text without comments. -/
def spans (text : List Char) : Except BracketFault (List Span) :=
  match nest [] [] (marks text) with
  | .ok roots => .ok roots
  | .error (offset, imbalance) => .error ⟨Text.lineOf text offset, imbalance⟩

namespace Span

def covers (s : Span) (offset : Nat) : Bool := s.start ≤ offset && offset ≤ s.stop

/-- The text between a span's brackets. -/
def interior (text : List Char) (s : Span) : List Char :=
  (text.drop (s.start + 1)).take (s.stop - (s.start + 1))

/-- The text between a span's brackets with every span inside it blanked. -/
def ownText (text : List Char) (s : Span) : List Char :=
  ((s.interior text).zipIdx (s.start + 1)).map fun (c, offset) =>
    if s.children.any (·.covers offset) then Text.blankOut c else c

end Span

end RouteInventory.Script
