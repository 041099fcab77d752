import RouteInventory.Json.Basic
import RouteInventory.Number.Shortest

/-!
# Writing JSON

The stable text of a JSON value: fields in increasing order of their names by code point, characters
as they are except for the quote, the backslash and the controls. With an indent every item and
field stands on a line of its own; without, a value is one line.
-/

namespace RouteInventory.Json

open Number

def escapedChar (c : Char) : List Char :=
  if c = '"' then ['\\', '"']
  else if c = '\\' then ['\\', '\\']
  else if c = '\n' then ['\\', 'n']
  else if c = '\r' then ['\\', 'r']
  else if c = '\t' then ['\\', 't']
  else if c.toNat = 8 then ['\\', 'b']
  else if c.toNat = 12 then ['\\', 'f']
  else if c.toNat < 0x20 then '\\' :: 'u' :: hex 4 c.toNat
  else [c]

def writeText (s : String) : List Char := '"' :: s.toList.flatMap escapedChar ++ ['"']

def writeFloat : Binary64 → List Char
  | .nan => "NaN".toList
  | .infinite negative => (if negative then "-Infinity" else "Infinity").toList
  | x => x.text

/-- Puts a field in front of the first one with a greater name. -/
def insertField {α : Type} (field : String × α) : List (String × α) → List (String × α)
  | [] => [field]
  | other :: rest =>
    if field.1 < other.1 then field :: other :: rest else other :: insertField field rest

/-- Fields in increasing order of their names. -/
def sortFields {α : Type} (fields : List (String × α)) : List (String × α) :=
  fields.foldr insertField []

/-- What stands in front of an item at a depth: with an indent, a line feed and the blanks. -/
def lineBreak (indent : Option Nat) (depth : Nat) : List Char :=
  match indent with
  | none => []
  | some n => '\n' :: List.replicate (n * depth) ' '

/-- What stands between two items. -/
def separator (indent : Option Nat) (depth : Nat) : List Char :=
  match indent with
  | none => [',', ' ']
  | some _ => ',' :: lineBreak indent depth

/-- Items that are already written, between brackets. -/
def enclose (indent : Option Nat) (depth : Nat) (opening closing : Char) (items : List (List Char)) :
    List Char :=
  if items.isEmpty then [opening, closing]
  else
    opening :: lineBreak indent (depth + 1) ++
      (separator indent (depth + 1)).intercalate items ++ lineBreak indent depth ++ [closing]

mutual

/-- The text of a value that stands at a depth. -/
def write (indent : Option Nat) (depth : Nat) : Json → List Char
  | null => "null".toList
  | bool b => (if b then "true" else "false").toList
  | int n => decimalInt n
  | float x => writeFloat x
  | text s => writeText s
  | list items => enclose indent depth '[' ']' (writeItems indent (depth + 1) items)
  | object fields =>
    enclose indent depth '\x7b' '\x7d'
      ((sortFields (writeFields indent (depth + 1) fields)).map fun (name, value) =>
        writeText name ++ ':' :: ' ' :: value)

def writeItems (indent : Option Nat) (depth : Nat) : List Json → List (List Char)
  | [] => []
  | item :: rest => write indent depth item :: writeItems indent depth rest

def writeFields (indent : Option Nat) (depth : Nat) :
    List (String × Json) → List (String × List Char)
  | [] => []
  | (name, value) :: rest => (name, write indent depth value) :: writeFields indent depth rest

end

/-- The stable text of a value, ended by a line feed. -/
def stableText (indent : Option Nat) (value : Json) : String :=
  String.ofList (write indent 0 value ++ ['\n'])

end RouteInventory.Json
