import RouteInventory.Script.Segment
import RouteInventory.Text.Search

/-!
# Properties of a route object

The properties that make an object a route, read from its own text: `path` with a literal value,
`loadChildren` with a module reference in it, and the `children` key in front of a list. A key may be
quoted; it does not count inside a longer identifier or behind a dot.
-/

namespace RouteInventory.Routing

open Script Text

/-- Whether a key may begin after a character. -/
def keyMayFollow (before : Option Char) : Bool :=
  !before.any fun c => isIdentifier c || c = '.'

def skipKeyQuote : List Char → List Char
  | c :: rest => if c = '\'' || c = '"' then rest else c :: rest
  | [] => []

/-- The text after the colon of a key that begins here. -/
def afterKey? (name : String) (before : Option Char) (text : List Char) : Option (List Char) :=
  if keyMayFollow before then do
    let rest ← after? name.toList text
    after? [':'] (skipBlanks (skipKeyQuote rest))
  else none

/-- A literal body between two equal marks at the beginning of a text. -/
def quoted? (isMark : Char → Bool) (barred : Char → Bool) : List Char → Option (List Char × List Char)
  | [] => none
  | mark :: rest => if isMark mark then bodyUpTo mark barred rest else none

/-- The value of the first `path` key that a literal follows. -/
def pathValue? (own : List Char) : Option (List Char) :=
  (firstMatch (fun before text => do
    let value ← afterKey? "path" before text
    -- a key in front of anything else than a literal is passed over for the next one
    quoted? isQuote (fun _ => false) (skipBlanks value)) none own).map (·.1)

/-- The text from the value of the first `loadChildren` key on. -/
def loadChildrenValue? (own : List Char) : Option (List Char) :=
  (firstMatch (fun before text =>
    (afterKey? "loadChildren" before text).map fun value => ((), value)) none own).map (·.2)

/-- Whether a text ends in a `children` key with its colon. -/
def endsInChildrenKey (text : List Char) : Bool :=
  match skipBlanks text.reverse with
  | ':' :: rest =>
    match after? "children".toList.reverse (skipKeyQuote (skipBlanks rest)) with
    | some earlier => keyMayFollow earlier.head?
    | none => false
  | _ => false

/-- The value at the beginning of a text: all up to the first comma in code outside parentheses. -/
def valueText (depth : Int) : List Segment → List Char
  | [] => []
  | .code c :: rest =>
    if c = ',' && depth ≤ 0 then []
    else c :: valueText (if c = '(' then depth + 1 else if c = ')' then depth - 1 else depth) rest
  | s :: rest => s.text ++ valueText depth rest

/-- The value of the `loadChildren` key, with the regular expressions in it read as in the whole
own text. -/
def loadChildrenText? (own : List Char) : Option (List Char) :=
  (loadChildrenValue? own).map fun value =>
    valueText 0 (segmentsFrom .bare (own.take (own.length - value.length)).reverse value)

/-- A module reference in the old form, a string at the beginning of the value. -/
def stringReference? (value : List Char) : Option (List Char) := do
  let (body, _) ← quoted? (fun c => c = '\'' || c = '"') (fun c => c = '\'' || c = '"')
    (skipBlanks value)
  -- behind the number sign stands the name of the class
  if body.isEmpty then none else some (body.takeWhile (· != '#'))

/-- A module reference in the first import call of the value that has a lone literal argument. -/
def importReference? (value : List Char) : Option (List Char) :=
  (firstMatch (fun before text =>
    if before.any isWord then none else do
      let call ← after? "import(".toList text
      let (body, rest) ← quoted? isQuote isQuote (skipBlanks call)
      if body.isEmpty then none else
      let after ← after? [')'] (skipBlanks rest)
      some (body, after)) none value).map (·.1)

/-- The module that a `loadChildren` value names. -/
def moduleReference? (value : List Char) : Option (List Char) :=
  (stringReference? value).orElse fun _ => importReference? value

/-- Whether the flag for hash-based addresses occurs in a text without comments. -/
def hasHashFlag (text : List Char) : Bool :=
  (firstMatch (fun before text =>
    if before.any isWord then none
    else
      let flag := do
        let key ← after? "useHash".toList text
        let value ← after? [':'] (skipBlanks key)
        let rest ← after? "true".toList (skipBlanks value)
        if rest.head?.any isWord then none else some ((), rest)
      flag.orElse fun _ => do
        let name ← after? "withHashLocation".toList text
        let rest ← after? ['('] (skipBlanks name)
        some ((), rest)) none text).isSome

end RouteInventory.Routing
