import RouteInventory.Json.Writer
import RouteInventory.Value.Literal
import RouteInventory.Value.Order

/-!
# Values as JSON

The JSON form of a value: tuples are lists, sets are sorted lists, paths are their text, members of
enumerations are what they count as, records are objects and keys are named by text. A set whose
items cannot be sorted has no such form. `Value.stableText` is the text of that form.
-/

namespace RouteInventory

open Number in
/-- Year, month and day between hyphens. -/
def Date.text (d : Date) : String :=
  String.ofList (padded 4 d.year ++ '-' :: padded 2 d.month ++ '-' :: padded 2 d.day)

open Number in
/-- Hours and minutes of a distance from universal time, with its sign. -/
def offsetText (offset : Int) : List Char :=
  let minutes := offset.natAbs / 60
  (if offset < 0 then '-' else '+') :: padded 2 (minutes / 60) ++ ':' :: padded 2 (minutes % 60)

open Number in
/-- Hours, minutes and seconds, with microseconds and the distance from universal time if any. -/
def TimeOfDay.text (t : TimeOfDay) : String :=
  let micros := if t.microsecond = 0 then [] else '.' :: padded 6 t.microsecond
  String.ofList (padded 2 t.hour ++ ':' :: padded 2 t.minute ++ ':' :: padded 2 t.second ++ micros ++
    (t.offset.map offsetText).getD [])

namespace Value

/-- A value as a field name. -/
def fieldName : Value → String
  | date d => d.text
  | dateTime d t => d.text ++ " " ++ t.text
  | x => x.nameText

mutual

/-- The JSON form of a value; there is none if the items of a set cannot be sorted. -/
def plain : Value → Except Disorder Json
  | null => .ok .null
  | bool b => .ok (.bool b)
  | int n => .ok (.int n)
  | float x => .ok (.float x)
  | text s => .ok (.text s)
  | bytes b => .ok (.text (bytes b).literalText)
  | path p => .ok (.text p.text)
  | date d => .ok (.text d.text)
  | dateTime d t => .ok (.text (d.text ++ " " ++ t.text))
  | member ⟨_, _, .text s⟩ => .ok (.text s)
  | member ⟨_, _, .number n⟩ => .ok (.int n)
  | list items => do return .list (← plainItems items)
  | tuple items => do return .list (← plainItems items)
  | set _ items => do
    return .list (← sorted (fun x y => less (ofJson x) (ofJson y)) (← plainItems items))
  | mapping entries => do return Json.ofFields (← plainEntries entries)
  | record _ fields => do return Json.ofFields (← plainFields fields)
  | inner isMapping => .ok (.text (inner isMapping).literalText)

def plainItems : List Value → Except Disorder (List Json)
  | [] => .ok []
  | x :: rest => do return (← plain x) :: (← plainItems rest)

def plainEntries : List (Value × Value) → Except Disorder (List (String × Json))
  | [] => .ok []
  | (key, x) :: rest => do return (key.fieldName, ← plain x) :: (← plainEntries rest)

def plainFields : List (String × Value) → Except Disorder (List (String × Json))
  | [] => .ok []
  | (name, x) :: rest => do return (name, ← plain x) :: (← plainFields rest)

end

/-- The stable text of a value's JSON form. -/
def stableText (indent : Option Nat) (x : Value) : Except Disorder String := do
  return (← x.plain).stableText indent

end Value

end RouteInventory
