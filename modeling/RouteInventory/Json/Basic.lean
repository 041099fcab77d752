import RouteInventory.Number.Binary64

/-!
# JSON data

A JSON value, with whole numbers kept apart from floating-point ones. Fields of an object have an
order but no two have the same name.
-/

namespace RouteInventory

inductive Json
  | null
  | bool (b : Bool)
  | int (n : Int)
  | float (x : Number.Binary64)
  | text (s : String)
  | list (items : List Json)
  | object (fields : List (String × Json))
deriving Repr, Inhabited

namespace Json

/-- The fields with one set: in its old place if the name is there, else at the end. -/
def setField (name : String) (value : Json) : List (String × Json) → List (String × Json)
  | [] => [(name, value)]
  | (n, v) :: rest =>
    if n = name then (name, value) :: rest else (n, v) :: setField name value rest

/-- The object of a sequence of fields, the last of a name counting. -/
def ofFields (fields : List (String × Json)) : Json :=
  object (fields.foldl (fun known (name, value) => setField name value known) [])

def field? (name : String) : Json → Option Json
  | object fields => fields.lookup name
  | _ => none

/-- A list of texts. -/
def strings (items : List String) : Json := list (items.map text)

/-- The whole or floating-point number that a number equals, as a quotient. -/
def ratio? : Json → Option (Int × Nat)
  | int n => some (n, 1)
  | float x => x.ratio?
  | _ => none

mutual

/-- Equality of data: numbers by value, objects by their fields in any order. -/
def same : Json → Json → Bool
  | null, null => true
  | bool a, bool b => a == b
  | text a, text b => a == b
  | list xs, list ys => sameList xs ys
  | object fs, object gs => fs.length == gs.length && sameFields fs gs
  | int a, int b => a == b
  | float (.infinite a), float (.infinite b) => a == b
  | float .nan, float .nan => true
  | x, y =>
    match x.ratio?, y.ratio? with
    | some (n, d), some (m, e) => n * e == m * d
    | _, _ => false

def sameList : List Json → List Json → Bool
  | [], [] => true
  | x :: xs, y :: ys => same x y && sameList xs ys
  | _, _ => false

def sameFields : List (String × Json) → List (String × Json) → Bool
  | [], _ => true
  | (name, x) :: rest, gs =>
    (match gs.lookup name with
      | some y => same x y
      | none => false) && sameFields rest gs

end

end Json

end RouteInventory
