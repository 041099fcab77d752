import RouteInventory.Number.Digits
import RouteInventory.Yaml.Cursor
import RouteInventory.Yaml.Fault

/-!
# Scalars

The texts of scalars in their four styles: plain, in single or double quotes, and as a block of lines
that is kept or folded. A line break inside a scalar is folded: a single one becomes a space, of
several the first is dropped.
-/

namespace RouteInventory.Yaml

open Number

/-- What is found, or else the fault of a malformed text. -/
def orMalformed {α : Type} : Option α → Except Fault α
  | some x => .ok x
  | none => .error .malformed

/-- A break in a folded text, with the breaks of the empty lines behind it. -/
def foldedBreak (first : Char) (others : List Char) : List Char :=
  if first != '\n' then first :: others
  else if others.isEmpty then [' ']
  else others

namespace Quoted

/-- The breaks of the empty lines at a place, blanks around them skipped. A mark between documents
must not stand among them. -/
def emptyLines? (c : Cursor) : Option (List Char × Cursor) :=
  if c.atSeparator then none
  else
    let afterBlanks := c.skip isBlank
    match afterBlanks.lineBreak? with
    | none => some ([], afterBlanks)
    | some (x, c') =>
      if c'.rest.length < c.rest.length then
        (emptyLines? c').map fun (breaks, c) => (x :: breaks, c)
      else none
termination_by c.rest.length

/-- Blanks inside quotes, folded if a line ends behind them. -/
def gap? (c : Cursor) : Option (List Char × Cursor) :=
  let (blanks, c) := c.span isBlank
  match c.lineBreak? with
  | none => some (blanks, c)
  | some (x, c) => (emptyLines? c).map fun (breaks, c) => (foldedBreak x breaks, c)

/-- The character for an escape of one letter. -/
def simpleEscape? (c : Char) : Option Char :=
  match c with
  | '0' => some (Char.ofNat 0)
  | 'a' => some (Char.ofNat 7)
  | 'b' => some (Char.ofNat 8)
  | 't' => some '\t'
  | '\t' => some '\t'
  | 'n' => some '\n'
  | 'v' => some (Char.ofNat 11)
  | 'f' => some (Char.ofNat 12)
  | 'r' => some '\r'
  | 'e' => some (Char.ofNat 27)
  | ' ' => some ' '
  | '"' => some '"'
  | '\\' => some '\\'
  | '/' => some '/'
  | 'N' => some (Char.ofNat 0x85)
  | '_' => some (Char.ofNat 0xa0)
  | 'L' => some (Char.ofNat 0x2028)
  | 'P' => some (Char.ofNat 0x2029)
  | _ => none

/-- The number of hexadecimal digits of an escape. -/
def escapeWidth? (c : Char) : Option Nat :=
  match c with
  | 'x' => some 2
  | 'u' => some 4
  | 'U' => some 8
  | _ => none

/-- The character of a code; a surrogate, which is half a character, becomes U+FFFD. -/
def character (code : Nat) : Except Fault Char :=
  if 0x110000 ≤ code then .error (.noCharacter code)
  else if 0xd800 ≤ code && code < 0xe000 then .ok (Char.ofNat 0xfffd)
  else .ok (Char.ofNat code)

/-- What an escape stands for, from the place behind its backslash. -/
def escape (c : Cursor) : Except Fault (List Char × Cursor) :=
  match c.peek with
  | none => .error .unfinished
  | some x =>
    match simpleEscape? x, escapeWidth? x with
    | some y, _ => .ok ([y], c.next)
    | none, some width =>
      let digits := c.next.rest.take width
      if !(digits.all fun d => (digit? d).isSome) then .error .malformed
      else if digits.length < width then .error .unfinished
      else do return ([← character (ofDigits 16 digits)], c.next.advance width)
    | none, none => orMalformed (c.lineBreak?.bind fun (_, c) => emptyLines? c)

/-- The text up to the closing quote, and the place behind it. -/
def body (double : Bool) (c : Cursor) : Except Fault (List Char × Cursor) :=
  let continueWith (piece : List Char) (c' : Cursor) : Except Fault (List Char × Cursor) :=
    if c'.rest.length < c.rest.length then
      (body double c').map fun (text, c) => (piece ++ text, c)
    else .error .malformed
  match c.rest with
  | [] => .error .unfinished
  | x :: rest =>
    if double && x = '"' then .ok ([], c.next)
    else if !double && x = '\'' then
      -- between single quotes there is no other escape than a doubled quote
      if rest.head? = some '\'' then continueWith ['\''] (c.advance 2) else .ok ([], c.next)
    else if double && x = '\\' then
      match escape c.next with
      | .ok (piece, c') => continueWith piece c'
      | .error fault => .error fault
    else if isBlank x || isBreak x then
      match gap? c with
      | some (piece, c') => continueWith piece c'
      | none => .error .malformed
    else continueWith [x] c.next
termination_by c.rest.length

end Quoted

namespace Plain

/-- Whether a colon in front of a place ends a plain scalar. -/
def endsBehindColon (inFlow : Bool) (next : Option Char) : Bool :=
  endsWord next || (inFlow && next.any ",[]\x7b\x7d".toList.contains)

/-- The run of characters of a plain scalar at the beginning of a text. -/
def word (inFlow : Bool) : List Char → List Char
  | [] => []
  | x :: rest =>
    if endsWord (some x) || (x = ':' && endsBehindColon inFlow rest.head?) ||
        (inFlow && ",?[]\x7b\x7d".toList.contains x) then []
    else x :: word inFlow rest

/-- The breaks of the empty lines at a place, spaces around them skipped, or nothing if a mark between
documents stands behind one of them. -/
def emptyLines (c : Cursor) : Option (List Char) × Cursor :=
  let afterSpaces := c.skipSpaces
  match afterSpaces.lineBreak? with
  | none => (some [], afterSpaces)
  | some (x, c') =>
    if c'.atSeparator then (none, c')
    else if c'.rest.length < c.rest.length then
      let (breaks, c) := emptyLines c'
      (breaks.map (x :: ·), c)
    else (none, c')
termination_by c.rest.length

/-- The blanks between the words of a plain scalar: their text, the place behind them and whether a
line ended among them. No text means that the scalar ends here. -/
def gap (c : Cursor) : List Char × Cursor × Bool :=
  let (spaces, c) := c.span (· = ' ')
  match c.lineBreak? with
  | none => (spaces, c, false)
  | some (x, c) =>
    if c.atSeparator then ([], c, true)
    else
      match emptyLines c with
      | (none, c) => ([], c, true)
      | (some breaks, c) => (foldedBreak x breaks, c, true)

/-- The words from a place on: their text, the place behind them and the blanks after them, and
whether a line ended among those blanks. -/
def words (inFlow : Bool) (indent : Nat) (c : Cursor) : List Char × Cursor × Bool :=
  let first := word inFlow c.rest
  let (blanks, c', broke) := gap (c.advance first.length)
  if blanks.isEmpty || c'.peek = some '#' || (!inFlow && c'.column < indent) ||
      (word inFlow c'.rest).isEmpty then (first, c', broke)
  else if c'.rest.length < c.rest.length then
    let (others, c, broke) := words inFlow indent c'
    (first ++ blanks ++ others, c, broke)
  else (first, c', broke)
termination_by c.rest.length

end Plain

namespace Block

/-- What becomes of the line breaks at the end of a block. -/
inductive Chomping
  | strip
  | clip
  | keep
deriving DecidableEq, Repr

structure Header where
  chomping : Chomping := .clip
  increment : Option Nat := none

def chomping? : Option Char → Option Chomping
  | some '+' => some .keep
  | some '-' => some .strip
  | _ => none

/-- A digit at a place; zero is refused. -/
def increment? (c : Cursor) : Option (Option Nat × Cursor) :=
  match c.peek with
  | some x =>
    if isDigit x then (if x = '0' then none else some (digit? x, c.next)) else some (none, c)
  | none => some (none, c)

/-- Reads the marks behind a block's indicator, in either order. -/
def header? (c : Cursor) : Option (Header × Cursor) := do
  match chomping? c.peek with
  | some chomping =>
    let (increment, c) ← increment? c.next
    return (⟨chomping, increment⟩, c)
  | none =>
    let (increment, c) ← increment? c
    match increment, chomping? c.peek with
    | some n, some chomping => return (⟨chomping, some n⟩, c.next)
    | _, _ => return (⟨.clip, increment⟩, c)

/-- Moves behind the rest of a header's line, which holds at most a comment. -/
def headerEnd? (c : Cursor) : Option Cursor :=
  if !endsField c.peek then none
  else
    let c := c.skipComment
    if !endsLine c.peek then none
    else
      match c.lineBreak? with
      | some (_, c) => some c
      | none => some c

/-- The breaks of the empty lines at a place, and the place in front of the first line that is not
empty, its indentation skipped. -/
def emptyLines (indent : Nat) (c : Cursor) : List Char × Cursor :=
  let spaces := (c.rest.takeWhile (· = ' ')).take (indent - c.column)
  let indented := c.advance spaces.length
  match indented.lineBreak? with
  | none => ([], indented)
  | some (x, c') =>
    if c'.rest.length < c.rest.length then
      let (breaks, c) := emptyLines indent c'
      (x :: breaks, c)
    else ([], c')
termination_by c.rest.length

/-- The breaks of the empty lines at a place, the greatest number of spaces on one of them or on the
first line that is not empty, and the place behind those. -/
def leadingLines (c : Cursor) : List Char × Nat × Cursor :=
  let indented := c.skipSpaces
  match indented.lineBreak? with
  | none => ([], indented.column, indented)
  | some (x, c') =>
    if c'.rest.length < c.rest.length then
      let (breaks, deepest, c) := leadingLines c'
      (x :: breaks, max indented.column deepest, c)
    else ([], indented.column, c')
termination_by c.rest.length

/-- The text of a block up to its last line, the break of that line, and the breaks behind it. -/
structure Body where
  text : List Char
  lastBreak : List Char
  breaks : List Char
  after : Cursor

/-- What joins two lines with empty lines between them. -/
def joint (folded : Bool) (lineBreak : List Char) (breaks : List Char) (first next : Option Char) :
    List Char :=
  let isText (c : Option Char) := !c.any isBlank
  if folded && lineBreak == ['\n'] && isText first && isText next then
    (if breaks.isEmpty then [' '] else [])
  else lineBreak

/-- The lines of a block from a place on, with the breaks in front of them. -/
def lines (folded : Bool) (indent : Nat) (breaks : List Char) (c : Cursor) : Body :=
  if c.column != indent || c.rest.isEmpty then ⟨[], [], breaks, c⟩
  else
    let (line, lineEnd) := c.span fun x => !isBreak x
    let (lineBreak, afterBreak) := match lineEnd.lineBreak? with
      | some (x, c) => ([x], c)
      | none => ([], lineEnd)
    let (others, c') := emptyLines indent afterBreak
    if c'.column = indent && !c'.rest.isEmpty && c'.rest.length < c.rest.length then
      let body := lines folded indent others c'
      { body with
        text := breaks ++ line ++ joint folded lineBreak others c.peek c'.peek ++ body.text }
    else ⟨breaks ++ line, lineBreak, others, c'⟩
termination_by c.rest.length
decreasing_by simp_all

/-- The text of a block scalar in a collection of the given indentation, from the place behind its
indicator. -/
def scalar? (folded : Bool) (least : Nat) (c : Cursor) : Option (List Char × Cursor) := do
  let (header, c) ← header? c
  let c ← headerEnd? c
  let (breaks, indent, c) := match header.increment with
    | none =>
      let (breaks, deepest, c) := leadingLines c
      (breaks, max least deepest, c)
    | some n =>
      let (breaks, c) := emptyLines (least + n - 1) c
      (breaks, least + n - 1, c)
  let body := lines folded indent breaks c
  let tail := match header.chomping with
    | .strip => []
    | .clip => body.lastBreak
    | .keep => body.lastBreak ++ body.breaks
  return (body.text ++ tail, body.after)

end Block

end RouteInventory.Yaml
