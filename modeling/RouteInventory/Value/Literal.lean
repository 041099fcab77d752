import RouteInventory.Number.Shortest
import RouteInventory.Text.Quoted
import RouteInventory.Value.Basic

/-!
# Literals of values

How a value is named in a message: on one line, texts in quotes, each kind of collection in its own
brackets. A collection within itself is left out where it occurs again.
-/

namespace RouteInventory.Value

open Text Number

/-- Literals with commas between them. -/
def commaSeparated (items : List (List Char)) : List Char := [',', ' '].intercalate items

def bracketed (opening closing : Char) (items : List (List Char)) : List Char :=
  opening :: commaSeparated items ++ [closing]

/-- A call with its arguments. -/
def callText (name : String) (arguments : List (List Char)) : List Char :=
  name.toList ++ bracketed '(' ')' arguments

/-- A span of time in whole seconds, split into days and the seconds left of a day. -/
def durationLiteral (seconds : Int) : List Char :=
  let days := seconds / 86400
  let rest := (seconds % 86400).toNat
  let part (name : String) (n : Int) := if n = 0 then [] else [(name ++ "=").toList ++ decimalInt n]
  let parts := part "days" days ++ part "seconds" rest
  callText "datetime.timedelta" (if parts.isEmpty then [['0']] else parts)

def zoneLiteral (offset : Int) : List Char :=
  if offset = 0 then "datetime.timezone.utc".toList
  else callText "datetime.timezone" [durationLiteral offset]

def dateParts (d : Date) : List (List Char) := [d.year, d.month, d.day].map decimal

/-- The parts of a time; seconds and microseconds are left out from the end while they are zero. -/
def timeParts (t : TimeOfDay) : List (List Char) :=
  let seconds := if t.second = 0 && t.microsecond = 0 then [] else [t.second]
  let micros := if t.microsecond = 0 then [] else [t.microsecond]
  ([t.hour, t.minute] ++ seconds ++ micros).map decimal

/-- A member of an enumeration with the names of both and its worth, in angle brackets. -/
def memberLiteral (m : Member) : List Char :=
  let worth := match m.worth with
    | .text s => quoted s.toList
    | .number n => decimalInt n
  ['<'] ++ s!"{m.enumeration}.{m.name}: ".toList ++ worth ++ ['>']

mutual

def literal : Value → List Char
  | null => "None".toList
  | bool b => (if b then "True" else "False").toList
  | int n => decimalInt n
  | float x => x.text
  | text s => quoted s.toList
  | bytes b => quotedBytes b
  | path p => callText "PosixPath" [quoted p.text.toList]
  | date d => callText "datetime.date" (dateParts d)
  | dateTime d t =>
    let zone := match t.offset with
      | none => []
      | some offset => ["tzinfo=".toList ++ zoneLiteral offset]
    callText "datetime.datetime" (dateParts d ++ timeParts t ++ zone)
  | member m => memberLiteral m
  | list items => bracketed '[' ']' (literals items)
  | tuple items =>
    match items with
    | [item] => '(' :: literal item ++ [',', ')']
    | items => bracketed '(' ')' (literals items)
  | set frozen items =>
    if items.isEmpty then (if frozen then "frozenset()" else "set()").toList
    else
      let body := bracketed '\x7b' '\x7d' (literals items)
      if frozen then "frozenset(".toList ++ body ++ [')'] else body
  | mapping entries => bracketed '\x7b' '\x7d' (entryLiterals entries)
  | record name fields => callText name (fieldLiterals fields)
  | inner isMapping => (if isMapping then "\x7b...\x7d" else "[...]").toList

def literals : List Value → List (List Char)
  | [] => []
  | x :: rest => literal x :: literals rest

def entryLiterals : List (Value × Value) → List (List Char)
  | [] => []
  | (key, x) :: rest => (literal key ++ ':' :: ' ' :: literal x) :: entryLiterals rest

def fieldLiterals : List (String × Value) → List (List Char)
  | [] => []
  | (name, x) :: rest => (name.toList ++ '=' :: literal x) :: fieldLiterals rest

end

def literalText (x : Value) : String := String.ofList x.literal

/-- A value as a name: texts and paths as they are, a member of an enumeration by the names of both or
by its number, other values by their literals. -/
def nameText : Value → String
  | text s => s
  | path p => p.text
  | member ⟨enumeration, name, .text _⟩ => s!"{enumeration}.{name}"
  | member ⟨_, _, .number n⟩ => String.ofList (decimalInt n)
  | x => x.literalText

end RouteInventory.Value
