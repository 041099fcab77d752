import RouteInventory.Json.Basic
import RouteInventory.Path.Basic
import RouteInventory.Text.Utf8
import RouteInventory.Value.Moment

/-!
# Values

The values that configuration documents hold and that the stable writer accepts: the JSON ones, and
besides them tuples, sets, paths, bytes, dates, records, members of enumerations and mappings whose
keys are values. Numbers and truth values are equal when they have the same numeric worth, and a
member of an enumeration is equal to what it counts as.
-/

namespace RouteInventory

/-- What a member of an enumeration counts as. -/
inductive Worth
  | text (s : String)
  | number (n : Int)
deriving DecidableEq, Repr

/-- A member of an enumeration. -/
structure Member where
  enumeration : String
  name : String
  worth : Worth
deriving DecidableEq, Repr

/-- `inner` is a list or mapping that stands within itself, where it occurs again. -/
inductive Value
  | null
  | bool (b : Bool)
  | int (n : Int)
  | float (x : Number.Binary64)
  | text (s : String)
  | bytes (b : Text.Bytes)
  | path (p : Path)
  | date (d : Date)
  | dateTime (d : Date) (t : TimeOfDay)
  | member (m : Member)
  | list (items : List Value)
  | tuple (items : List Value)
  | set (frozen : Bool) (items : List Value)
  | mapping (entries : List (Value × Value))
  | record (name : String) (fields : List (String × Value))
  | inner (isMapping : Bool)
deriving Repr, Inhabited

namespace Value

/-- The text that a value is or counts as. -/
def text? : Value → Option String
  | text s => some s
  | member ⟨_, _, .text s⟩ => some s
  | _ => none

/-- The whole number that a value is or counts as; truth values are kept apart. -/
def int? : Value → Option Int
  | int n => some n
  | member ⟨_, _, .number n⟩ => some n
  | _ => none

/-- The numeric worth of a number or truth value, as a quotient. -/
def ratio? : Value → Option (Int × Nat)
  | bool b => some (if b then 1 else 0, 1)
  | float x => x.ratio?
  | x => x.int?.map fun n => (n, 1)

mutual

def same : Value → Value → Bool
  | null, null => true
  | bytes a, bytes b => a == b
  | path a, path b => a == b
  | date a, date b => a == b
  | dateTime a s, dateTime b t => isSameMoment a s b t
  | list xs, list ys => sameItems xs ys
  | tuple xs, tuple ys => sameItems xs ys
  | set _ xs, set _ ys => xs.length == ys.length && includes ys xs
  | mapping xs, mapping ys => xs.length == ys.length && sameEntries xs ys
  | record a xs, record b ys => a == b && sameFields xs ys
  | inner a, inner b => a == b
  | float (.infinite a), float (.infinite b) => a == b
  | x, y =>
    match x.text?, y.text? with
    | some a, some b => a == b
    | _, _ =>
      match x.ratio?, y.ratio? with
      | some (n, d), some (m, e) => n * e == m * d
      | _, _ => false

def sameItems : List Value → List Value → Bool
  | [], [] => true
  | x :: xs, y :: ys => same x y && sameItems xs ys
  | _, _ => false

/-- Whether every item of the second list is among the first. -/
def includes (ys : List Value) : List Value → Bool
  | [] => true
  | x :: xs => ys.any (same x) && includes ys xs

def sameEntries : List (Value × Value) → List (Value × Value) → Bool
  | [], _ => true
  | (k, x) :: rest, ys =>
    ys.any (fun (l, y) => same k l && same x y) && sameEntries rest ys

def sameFields : List (String × Value) → List (String × Value) → Bool
  | [], [] => true
  | (_, x) :: xs, (_, y) :: ys => same x y && sameFields xs ys
  | _, _ => false

end

/-- The entries with one set: under its old key if there is one, else at the end. -/
def setEntry (key value : Value) : List (Value × Value) → List (Value × Value)
  | [] => [(key, value)]
  | (k, v) :: rest => if k.same key then (k, value) :: rest else (k, v) :: setEntry key value rest

/-- The mapping of a sequence of entries, the last of a key counting. -/
def ofEntries (entries : List (Value × Value)) : Value :=
  mapping (entries.foldl (fun known (key, value) => setEntry key value known) [])

/-- The name of a value's kind. -/
def kindName : Value → String
  | null => "NoneType"
  | bool _ => "bool"
  | int _ => "int"
  | float _ => "float"
  | text _ => "str"
  | bytes _ => "bytes"
  | path _ => "PosixPath"
  | date _ => "datetime.date"
  | dateTime _ _ => "datetime.datetime"
  | member m => m.enumeration
  | list _ => "list"
  | tuple _ => "tuple"
  | set frozen _ => if frozen then "frozenset" else "set"
  | mapping _ => "dict"
  | record name _ => name
  | inner isMapping => if isMapping then "dict" else "list"

mutual

/-- The first part of a value that may change, so that the value can be no key and no item of a set. -/
def changeable? : Value → Option Value
  | list items => some (list items)
  | set false items => some (set false items)
  | mapping entries => some (mapping entries)
  | inner isMapping => some (inner isMapping)
  | tuple items => firstChangeable? items
  | record _ fields => firstChangeableField? fields
  | _ => none

def firstChangeable? : List Value → Option Value
  | [] => none
  | x :: rest => (changeable? x).or (firstChangeable? rest)

def firstChangeableField? : List (String × Value) → Option Value
  | [] => none
  | (_, x) :: rest => (changeable? x).or (firstChangeableField? rest)

end

mutual

/-- Whether a whole number in a value has more digits than are written. -/
def isTooLong : Value → Bool
  | int n => Number.isTooLong n
  | list items | tuple items | set _ items => anyTooLong items
  | mapping entries => anyEntryTooLong entries
  | record _ fields => anyFieldTooLong fields
  | _ => false

def anyTooLong : List Value → Bool
  | [] => false
  | x :: rest => isTooLong x || anyTooLong rest

def anyEntryTooLong : List (Value × Value) → Bool
  | [] => false
  | (key, x) :: rest => isTooLong key || isTooLong x || anyEntryTooLong rest

def anyFieldTooLong : List (String × Value) → Bool
  | [] => false
  | (_, x) :: rest => isTooLong x || anyFieldTooLong rest

end

mutual

/-- A JSON value as a value. -/
def ofJson : Json → Value
  | .null => null
  | .bool b => bool b
  | .int n => int n
  | .float x => float x
  | .text s => text s
  | .list items => list (ofJsonItems items)
  | .object fields => mapping (ofJsonFields fields)

def ofJsonItems : List Json → List Value
  | [] => []
  | x :: rest => ofJson x :: ofJsonItems rest

def ofJsonFields : List (String × Json) → List (Value × Value)
  | [] => []
  | (name, x) :: rest => (text name, ofJson x) :: ofJsonFields rest

end

end Value

end RouteInventory
