import RouteInventory.Text.Ranges

/-!
# Blanks and lines

`isBlank` is the Unicode notion of white space: the ASCII controls from tab to carriage return and
from the file to the unit separator, the space, and the separators of the higher planes. Zero-width
characters are not blank. Lines are counted by line feeds alone.
-/

namespace RouteInventory.Text

def blankRanges : Ranges :=
  [(0x9, 0xd), (0x1c, 0x20), (0x85, 0x85), (0xa0, 0xa0), (0x1680, 0x1680), (0x2000, 0x200a),
    (0x2028, 0x2029), (0x202f, 0x202f), (0x205f, 0x205f), (0x3000, 0x3000)]

def isBlank (c : Char) : Bool := blankRanges.contains c

/-- The text without the leading characters of a class. -/
def trimStart (junk : Char → Bool) (text : List Char) : List Char := text.dropWhile junk

/-- The text without the trailing characters of a class. -/
def trimEnd (junk : Char → Bool) (text : List Char) : List Char :=
  (text.reverse.dropWhile junk).reverse

/-- The text without the characters of a class at either end. -/
def trim (junk : Char → Bool) (text : List Char) : List Char := trimEnd junk (trimStart junk text)

/-- The text without blanks at either end. -/
def strip (text : List Char) : List Char := trim isBlank text

def skipBlanks (text : List Char) : List Char := trimStart isBlank text

/-- The line of the character at an offset, counted from one. -/
def lineOf (text : List Char) (offset : Nat) : Nat := (text.take offset).count '\n' + 1

/-- The same line structure with every other character made a space. -/
def blankOut (c : Char) : Char := if c = '\n' then '\n' else ' '

/-- The fields between the occurrences of a separator, empty ones included. -/
def fields (separator : Char) : List Char → List (List Char)
  | [] => [[]]
  | c :: rest =>
    if c = separator then [] :: fields separator rest
    else match fields separator rest with
      | [] => [[c]]
      | first :: others => (c :: first) :: others

end RouteInventory.Text
