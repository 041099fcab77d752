import RouteInventory.Value.Basic

/-!
# The order of values

Numbers and truth values are ordered by worth, texts by code points, lists and tuples by their first
difference, sets by inclusion. Values of different kinds are not ordered, nor are mappings and records,
so that a list of values may have no sorted form. `sorted` puts a run at the beginning of a list in
order and inserts the other items by bisection: of an order that is not linear the outcome depends on
that.
-/

namespace RouteInventory

namespace Sorting

variable {α ε : Type}

/-- The longest continuation of a run behind its last item, and what follows it. A falling run falls
from item to item; a rising one does not fall. -/
def continueRun (less : α → α → Except ε Bool) (falling : Bool) (last : α) :
    List α → Except ε (List α × List α)
  | [] => .ok ([], [])
  | x :: rest => do
    if (← less x last) = falling then
      let (run, others) ← continueRun less falling x rest
      return (x :: run, others)
    else return ([], x :: rest)

/-- The run at the beginning of a list, put in rising order, and what follows it. -/
def firstRun (less : α → α → Except ε Bool) : List α → Except ε (List α × List α)
  | x :: y :: rest => do
    let falling ← less y x
    let (run, others) ← continueRun less falling y rest
    let run := x :: y :: run
    return (if falling then run.reverse else run, others)
  | items => .ok (items, [])

/-- The place of an item between two positions of a sorted list, found by bisection. -/
def bisect (less : α → α → Except ε Bool) (x : α) (items : Array α) (low high : Nat) :
    Except ε Nat :=
  if low < high then
    let middle := low + (high - low) / 2
    match items[middle]? with
    -- this does not come up: positions stay within the list
    | none => .ok low
    | some y =>
      match less x y with
      | .error disorder => .error disorder
      | .ok true => bisect less x items low middle
      | .ok false => bisect less x items (middle + 1) high
  else .ok low
termination_by high - low
decreasing_by all_goals omega

def insert (less : α → α → Except ε Bool) (items : Array α) (x : α) : Except ε (Array α) := do
  let place ← bisect less x items 0 items.size
  return items.insertIdxIfInBounds place x

end Sorting

/-- A list in rising order, if the items that meet can be compared. -/
def sorted {α ε : Type} (less : α → α → Except ε Bool) (items : List α) : Except ε (List α) := do
  let (run, others) ← Sorting.firstRun less items
  return (← others.foldlM (Sorting.insert less) run.toArray).toList

/-- Why two values cannot be compared. -/
inductive Disorder
  | kinds (left right : String)
  | dates (left right : String)
  | offsets
deriving DecidableEq, Repr

namespace Disorder

def message : Disorder → String
  | kinds left right => s!"'<' not supported between instances of '{left}' and '{right}'"
  | dates left right => s!"can't compare {left} to {right}"
  | offsets => "can't compare offset-naive and offset-aware datetimes"

end Disorder

namespace Value

/-- The side on which an infinite number lies. -/
def infinity? : Value → Option Ordering
  | float (.infinite negative) => some (if negative then .lt else .gt)
  | _ => none

def isNumber (x : Value) : Bool :=
  match x with
  | float _ => true
  | x => x.ratio?.isSome

def isNaN : Value → Bool
  | float .nan => true
  | _ => false

/-- Whether a number is less than another; none is less than what is no number, or greater. -/
def lessWorth (x y : Value) : Bool :=
  match x.infinity?, y.infinity? with
  | some a, some b => a == .lt && b == .gt
  | some a, none => a == .lt && !y.isNaN
  | none, some b => b == .gt && !x.isNaN
  | none, none =>
    match x.ratio?, y.ratio? with
    | some (n, d), some (m, e) => n * e < m * d
    | _, _ => false

/-- Whether two items of sequences stand for the same. -/
def alike (x y : Value) : Bool := x.same y || (x.isNaN && y.isNaN)

/-- The names by which paths are compared, the anchor first. -/
def pathNames (p : Path) : List String :=
  if p.isAbsolute then p.anchor.text :: p.names else p.names

mutual

def less : Value → Value → Except Disorder Bool
  | bytes a, bytes b => .ok (compare (a.map (·.toNat)) (b.map (·.toNat)) == .lt)
  | path a, path b => .ok (compare (pathNames a) (pathNames b) == .lt)
  | date a, date b => .ok (decide (a.ordinal < b.ordinal))
  | dateTime a s, dateTime b t =>
    if areComparable s t then .ok (decide (instant a s < instant b t)) else .error .offsets
  | dateTime a s, date b => .error (.dates (dateTime a s).kindName (date b).kindName)
  | date a, dateTime b t => .error (.dates (dateTime b t).kindName (date a).kindName)
  | list xs, list ys => lessItems xs ys
  | tuple xs, tuple ys => lessItems xs ys
  -- sets are not compared by their items, but by inclusion
  | set _ xs, set _ ys => .ok (xs.length < ys.length && includes ys xs)
  | x, y =>
    match x.text?, y.text? with
    | some a, some b => .ok (decide (a < b))
    | _, _ =>
      if x.isNumber && y.isNumber then .ok (lessWorth x y)
      else .error (.kinds x.kindName y.kindName)

/-- Whether a sequence is less at the first items that differ, or ends there. -/
def lessItems : List Value → List Value → Except Disorder Bool
  | _, [] => .ok false
  | [], _ :: _ => .ok true
  | x :: xs, y :: ys => if alike x y then lessItems xs ys else less x y

end

end Value

end RouteInventory
