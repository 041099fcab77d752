import RouteInventory.Text.Search
import RouteInventory.Value.Literal
import RouteInventory.Value.Order

/-!
# Schemas

A schema is a rule on JSON data, made from rules on its kind, its fields, its items and its text. The
violations of a schema by a value come in the order of the rules; `Violation.worst?` picks the one to
report: the nearest to the top, and of those the one with the greatest place.
-/

namespace RouteInventory

namespace Schema

inductive Kind
  | object
  | array
  | string
  | integer
deriving DecidableEq, Repr

namespace Kind

def name : Kind → String
  | object => "object"
  | array => "array"
  | string => "string"
  | integer => "integer"

/-- A number without a fraction is an integer however it is written. -/
def admits : Kind → Json → Bool
  | object, .object _ => true
  | array, .list _ => true
  | string, .text _ => true
  | integer, .int _ => true
  | integer, .float x => x.isInteger
  | _, _ => false

end Kind

/-- What a text has to look like. -/
inductive Shape
  | contains (word : String)
  | startsWith (words : List String)
deriving DecidableEq, Repr

namespace Shape

/-- A shape as a regular expression. -/
def expression : Shape → String
  | contains word => String.ofList (word.toList.flatMap fun c => if c = '*' then ['\\', c] else [c])
  | startsWith words => "^(" ++ String.intercalate "|" words ++ ")"

def fits : Shape → String → Bool
  | contains word, s => Text.occurs word.toList s.toList
  | startsWith words, s => words.any fun word => word.toList.isPrefixOf s.toList

end Shape

end Schema

/-- A rule on a JSON value. Rules on fields say nothing of what is no object, and so for the others. -/
inductive Schema
  | all (rules : List Schema)
  | kind (k : Schema.Kind)
  | closed (names : List String)
  | required (names : List String)
  | properties (fields : List (String × Schema))
  | minimum (least : Int)
  | oneOf (choices : List String)
  | minLength (least : Nat)
  | distinct
  | items (rule : Schema)
  | shaped (shape : Schema.Shape)
  | never (rule : Schema)
  | anyOf (choices : List Schema)
deriving Repr

namespace Schema

/-- A step from a value to one inside it. -/
inductive Step
  | name (name : String)
  | index (i : Nat)
deriving DecidableEq, Repr

namespace Step

def compare : Step → Step → Ordering
  | name a, name b => compareOfLessAndEq a b
  | index i, index j => Ord.compare i j
  | index _, name _ => .lt
  | name _, index _ => .gt

end Step

/-- The rule that a value breaks. -/
inductive Cause
  | kind (k : Kind)
  | closed (extra : List String)
  | required (name : String)
  | minimum (least : Int)
  | oneOf (choices : List String)
  | minLength (least : Nat)
  | distinct
  | shaped (shape : Shape)
  | never (rule : Schema)
  | anyOf (choices : List Schema)
deriving Repr

/-- A broken rule, the value that breaks it and the way to that value. -/
structure Violation where
  path : List Step
  value : Json
  cause : Cause
deriving Repr

namespace Violation

/-- A violation of the value at a step. -/
def below (step : Step) (v : Violation) : Violation := { v with path := step :: v.path }

/-- The order of ways with equally many steps. -/
def comparePaths : List Step → List Step → Ordering
  | [], [] => .eq
  | [], _ :: _ => .lt
  | _ :: _, [] => .gt
  | a :: as, b :: bs => (a.compare b).then (comparePaths as bs)

/-- Whether a violation is to be reported before another. -/
def outranks (v w : Violation) : Bool :=
  v.path.length < w.path.length ||
    (v.path.length == w.path.length && comparePaths v.path w.path == .gt)

/-- The violation to report, the first of those that no other outranks. -/
def worst? : List Violation → Option Violation
  | [] => none
  | v :: rest => some (rest.foldl (fun worst w => if w.outranks worst then w else worst) v)

end Violation

/-- Names in increasing order. -/
def sortNames (names : List String) : List String := names.mergeSort fun a b => a ≤ b

/-- Whether no two of some values are the same. -/
def arePairwiseDistinct : List Json → Bool
  | [] => true
  | x :: rest => !rest.any x.same && arePairwiseDistinct rest

/-- Whether no two neighbours among some values are the same. -/
def areNeighboursDistinct : List Json → Bool
  | x :: y :: rest => !x.same y && areNeighboursDistinct (y :: rest)
  | _ => true

def isText : Json → Bool
  | .text _ => true
  | _ => false

/-- The order in which items are put before neighbours are compared. Truth values are not ordered. -/
def lessItem (x y : Json) : Except Disorder Bool :=
  match x, y with
  | .bool _, _ | _, .bool _ => .error (.kinds "object" "object")
  | x, y => (Value.ofJson x).less (.ofJson y)

/-- Whether the items of a list count as different. Texts are compared with each other; items of other
kinds with their neighbours in rising order only, unless they cannot be ordered. -/
def areDistinct (items : List Json) : Bool :=
  if items.all isText then arePairwiseDistinct items
  else match sorted lessItem items with
    | .ok items => areNeighboursDistinct items
    | .error _ => arePairwiseDistinct items

/-- The violation of a value itself, if a condition fails. -/
def check (holds : Bool) (value : Json) (cause : Cause) : List Violation :=
  if holds then [] else [⟨[], value, cause⟩]

def isBelow (least : Int) (x : Json) : Bool :=
  match x with
  | .float (.infinite negative) => negative
  | x =>
    match x.ratio? with
    | some (num, den) => num < least * den
    | none => false

mutual

/-- The violations of a rule by a value. -/
def violations : Schema → Json → List Violation
  | all rules, x => violationsAll rules x
  | kind k, x => check (k.admits x) x (.kind k)
  | closed names, x =>
    match x with
    | .object fields =>
      let extra := sortNames ((fields.map (·.1)).filter fun name => !names.contains name)
      check extra.isEmpty x (.closed extra)
    | _ => []
  | required names, x =>
    match x with
    | .object fields =>
      names.flatMap fun name => check ((fields.map (·.1)).contains name) x (.required name)
    | _ => []
  | properties rules, x => violationsFields rules x
  | minimum least, x => check (!isBelow least x) x (.minimum least)
  | oneOf choices, x => check (choices.any fun c => (Json.text c).same x) x (.oneOf choices)
  | minLength least, x =>
    match x with
    | .text s => check (least ≤ s.length) x (.minLength least)
    | _ => []
  | distinct, x =>
    match x with
    | .list xs => check (areDistinct xs) x .distinct
    | _ => []
  | items rule, x =>
    match x with
    | .list xs =>
      xs.zipIdx.flatMap fun (item, i) => (rule.violations item).map (·.below (.index i))
    | _ => []
  | shaped shape, x =>
    match x with
    | .text s => check (shape.fits s) x (.shaped shape)
    | _ => []
  | never rule, x => check (!(rule.violations x).isEmpty) x (.never rule)
  | anyOf choices, x => check (admitsAny choices x) x (.anyOf choices)

def violationsAll : List Schema → Json → List Violation
  | [], _ => []
  | rule :: rest, x => rule.violations x ++ violationsAll rest x

def violationsFields : List (String × Schema) → Json → List Violation
  | [], _ => []
  | (name, rule) :: rest, x =>
    (match x.field? name with
      | some value => (rule.violations value).map (·.below (.name name))
      | none => []) ++ violationsFields rest x

def admitsAny : List Schema → Json → Bool
  | [], _ => false
  | rule :: rest, x => (rule.violations x).isEmpty || admitsAny rest x

end

/-- Accepts a value, or answers the violation to report. -/
def validate (s : Schema) (x : Json) : Except Violation Unit :=
  match Violation.worst? (s.violations x) with
  | none => .ok ()
  | some v => .error v

end Schema

end RouteInventory
