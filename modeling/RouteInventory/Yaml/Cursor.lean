import RouteInventory.Text.Search

/-!
# Cursors

A place in a YAML text with the text after it. Lines and columns are counted from zero; besides the
line feed three more characters end a line, and the byte order mark takes no column.
-/

namespace RouteInventory.Yaml

def isBreak (c : Char) : Bool :=
  c = '\n' || c.toNat = 0x85 || c.toNat = 0x2028 || c.toNat = 0x2029

def isBlank (c : Char) : Bool := c = ' ' || c = '\t'

def isOrderMark (c : Char) : Bool := c.toNat = 0xfeff

/-- Whether a place is the end of a line. -/
def endsLine : Option Char → Bool
  | none => true
  | some c => isBreak c

/-- Whether a place is a space or the end of a line. -/
def endsField : Option Char → Bool
  | some ' ' => true
  | c => endsLine c

/-- Whether a place is a blank or the end of a line. -/
def endsWord : Option Char → Bool
  | some '\t' => true
  | c => endsField c

structure Cursor where
  rest : List Char
  index : Nat := 0
  line : Nat := 0
  column : Nat := 0
deriving Repr

namespace Cursor

def peek (c : Cursor) : Option Char := c.rest.head?

/-- The character so many places ahead. -/
def ahead (c : Cursor) (n : Nat) : Option Char := c.rest[n]?

/-- Moves behind the next character. -/
def next (c : Cursor) : Cursor :=
  match c.rest with
  | [] => c
  | x :: rest =>
    if isBreak x then ⟨rest, c.index + 1, c.line + 1, 0⟩
    else ⟨rest, c.index + 1, c.line, if isOrderMark x then c.column else c.column + 1⟩

def advance (c : Cursor) : Nat → Cursor
  | 0 => c
  | n + 1 => c.next.advance n

/-- The longest run of characters of a class, and the place behind it. -/
def span (c : Cursor) (p : Char → Bool) : List Char × Cursor :=
  let run := c.rest.takeWhile p
  (run, c.advance run.length)

def skip (c : Cursor) (p : Char → Bool) : Cursor := (c.span p).2

def skipSpaces (c : Cursor) : Cursor := c.skip (· = ' ')

/-- Moves to the end of the line. -/
def skipLine (c : Cursor) : Cursor := c.skip fun x => !isBreak x

/-- Moves behind spaces and a comment. -/
def skipComment (c : Cursor) : Cursor :=
  let c := c.skipSpaces
  if c.peek = some '#' then c.skipLine else c

/-- The line break at a place, and the place behind it. Unicode's separators stand for themselves,
the other breaks for a line feed. -/
def lineBreak? (c : Cursor) : Option (Char × Cursor) :=
  match c.peek with
  | some x =>
    if isBreak x then some (if x.toNat < 0x100 then '\n' else x, c.next) else none
  | none => none

/-- Whether a word of three characters stands at a place. -/
def hasMark (c : Cursor) (mark : String) : Bool :=
  mark.toList.isPrefixOf c.rest && endsWord (c.ahead 3)

/-- Whether a mark between documents stands at a place. -/
def atSeparator (c : Cursor) : Bool := c.hasMark "---" || c.hasMark "..."

end Cursor

end RouteInventory.Yaml
