import RouteInventory.Text.Blank
import RouteInventory.Text.Cells

/-!
# Layout

Text set in lines of a given width. A line breaks in front of a word that no longer fits; blanks stay
with the word before them. A word too long for any line is folded, or left to be cut off.
-/

namespace RouteInventory.Report

open Text

/-- What becomes of text that is too long for a line. -/
inductive Overflow
  | fold
  | ellipsis
deriving DecidableEq, Repr

/-- Where a line stands in its width; `natural` lines keep their blanks and are not filled up. -/
inductive Alignment
  | natural
  | left
  | center
  | right
deriving DecidableEq, Repr

/-- The first word of a text with the blanks around it, and the text behind it. -/
def word? (text : List Char) : Option (List Char × List Char) :=
  let lead := (text.takeWhile isBlank).length
  let core := ((text.drop lead).takeWhile fun c => !isBlank c).length
  if core = 0 then none
  else
    let length := lead + core + ((text.drop (lead + core)).takeWhile isBlank).length
    some (text.take length, text.drop length)

theorem length_of_word? {text word rest : List Char} (h : word? text = some (word, rest)) :
    rest.length < text.length := by
  simp only [word?] at h
  split at h
  · simp at h
  · rename_i hcore
    simp only [Option.some.injEq, Prod.mk.injEq] at h
    have hlt : 0 < text.length := by
      refine Nat.pos_of_ne_zero fun h0 => hcore ?_
      rw [List.length_eq_zero_iff.mp h0]
      rfl
    rw [← h.2, List.length_drop]
    omega

/-- The words of a text, each with the blanks behind it, the first with those in front of it too. -/
def words (text : List Char) : List (List Char) :=
  match h : word? text with
  | none => []
  | some (word, rest) =>
    have := length_of_word? h
    word :: words rest
termination_by text.length

/-- Lines under way: the finished ones, latest first, and the current one with its width. -/
structure Setting where
  finished : List (List Char) := []
  current : List Char := []
  used : Nat := 0
  /-- Whether anything has been set. -/
  begun : Bool := false

namespace Setting

/-- Ends the current line, unless nothing has been set. -/
def breakLine (s : Setting) : Setting :=
  if s.begun then { s with finished := s.current :: s.finished, current := [] } else s

def add (s : Setting) (text : List Char) (used : Nat) : Setting :=
  { s with current := s.current ++ text, used, begun := s.begun || !text.isEmpty }

/-- Sets the pieces of a word, each on a line of its own. -/
def addPieces (s : Setting) : List (List Char) → Setting
  | [] => s
  | piece :: rest => (s.breakLine.add piece (width piece)).addPieces rest

def addWord (overflow : Overflow) (cells : Nat) (s : Setting) (word : List Char) : Setting :=
  let length := width (trimEnd isBlank word)
  if s.used + length ≤ cells then s.add word (s.used + width word)
  else if length > cells then
    -- no line is long enough
    match overflow with
    | .fold => s.addPieces (chop cells word)
    | .ellipsis => s.breakLine.add word (width word)
  else s.breakLine.add word (width word)

def lines (s : Setting) : List (List Char) := (s.current :: s.finished).reverse

end Setting

/-- A line of text broken into lines. -/
def breakLines (overflow : Overflow) (cells : Nat) (text : List Char) : List (List Char) :=
  match words text with
  | [] => [text]
  | ws => (ws.foldl (Setting.addWord overflow cells) {}).lines

/-- A text without blanks at its end, as far as it has more characters than it may. -/
def dropExcessBlanks (most : Nat) (text : List Char) : List Char :=
  let blanks := text.length - (trimEnd isBlank text).length
  text.take (text.length - min blanks (text.length - most))

/-- A text cut to so many cells. -/
def cut (overflow : Overflow) (cells : Nat) (text : List Char) : List Char :=
  if width text ≤ cells then text
  else
    match overflow with
    | .fold => fit cells text
    | .ellipsis => fit (cells - 1) text ++ ['…']

def blanks (n : Nat) : List Char := List.replicate n ' '

def align (alignment : Alignment) (overflow : Overflow) (cells : Nat) (text : List Char) :
    List Char :=
  match alignment with
  | .natural => cut overflow cells text
  | .left =>
    let text := cut overflow cells text
    text ++ blanks (cells - width text)
  | .center =>
    let text := cut overflow cells (trimEnd isBlank text)
    let text := blanks ((cells - width text) / 2) ++ text
    text ++ blanks (cells - width text)
  | .right =>
    let text := cut overflow cells (trimEnd isBlank text)
    blanks (cells - width text) ++ text

/-- The distance between tab stops. -/
def tabStop : Nat := 8

/-- Blanks for the tabs between pieces of a line, from a column on. -/
def joinTabs (column : Nat) : List (List Char) → List Char
  | [] => []
  | [piece] => piece
  | piece :: rest =>
    let before := column + width (piece ++ [' '])
    let after := (before + tabStop - 1) / tabStop * tabStop
    piece ++ ' ' :: blanks (after - before) ++ joinTabs after rest

/-- A line with blanks for its tabs. -/
def expandTabs (line : List Char) : List Char := joinTabs 0 (fields '\t' line)

/-- Control characters that never show: bell, backspace, vertical tab, form feed, return. -/
def isSilent (c : Char) : Bool := [7, 8, 11, 12, 13].contains c.toNat

/-- A text set in lines. -/
def setLines (alignment : Alignment) (overflow : Overflow) (cells : Nat) (text : List Char) :
    List (List Char) :=
  (fields '\n' (text.filter (!isSilent ·))).flatMap fun line =>
    (breakLines overflow cells (expandTabs line)).map fun line =>
      align alignment overflow cells (dropExcessBlanks cells line)

/-- A text set in lines that keep their blanks. -/
def paragraph (cells : Nat) (text : List Char) : List (List Char) :=
  setLines .natural .fold cells text

/-- Pieces of a line, cropped to so many cells: pieces are kept while there is room behind them, and
the first one that takes all of it is made to fit. -/
def cropPieces (cells : Nat) : List (List Char) → List Char
  | [] => []
  | piece :: rest =>
    if width piece < cells then piece ++ cropPieces (cells - width piece) rest else fit cells piece

/-- A line that consists of pieces, cropped if the pieces are too wide by themselves. A joiner at the
end of a piece joins nothing. -/
def crop (cells : Nat) (pieces : List (List Char)) : List Char :=
  if (pieces.map width).foldr (· + ·) 0 ≤ cells then pieces.flatten else cropPieces cells pieces

/-- What a rule consists of. -/
def dash : Char := '─'

/-- A line of dashes with a title in its middle. -/
def rule (cells : Nat) (title : List Char) : List Char :=
  if title.isEmpty || cells ≤ 4 then List.replicate cells dash
  else
    let title := (title.filter (!isSilent ·)).map fun c => if c = '\n' then ' ' else c
    let title := cut .ellipsis (cells - 4) (expandTabs title)
    let side := (cells - width title) / 2
    let left := List.replicate (side - 1) dash
    let right := List.replicate (min (side + 1) (cells - left.length - width title)) dash
    let line := fit cells (left ++ ' ' :: title ++ ' ' :: right)
    let behind := line.drop (left.length + 1)
    crop cells [line.take (left.length + 1), behind.take title.length, behind.drop title.length]

end RouteInventory.Report
