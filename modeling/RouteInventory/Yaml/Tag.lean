import RouteInventory.Number.Digits
import RouteInventory.Text.Blank
import RouteInventory.Yaml.Timestamp

/-!
# Tags

The types of YAML values, and the type that the text of a plain scalar has when no tag says one.
-/

namespace RouteInventory.Yaml

open Number

inductive Tag
  | null
  | bool
  | int
  | float
  | str
  | binary
  | timestamp
  | seq
  | map
  | set
  | omap
  | pairs
  | merge
  | value
  | other
deriving DecidableEq, Repr

namespace Tag

def names : List (String × Tag) :=
  [("null", null), ("bool", bool), ("int", int), ("float", float), ("str", str),
    ("binary", binary), ("timestamp", timestamp), ("seq", seq), ("map", map), ("set", set),
    ("omap", omap), ("pairs", pairs), ("merge", merge), ("value", value)]

/-- The tag with an address. -/
def ofAddress (address : String) : Tag :=
  ((names.map fun (name, tag) => ("tag:yaml.org,2002:" ++ name, tag)).lookup address).getD other

end Tag

namespace Implicit

/-- The spellings of truth values. -/
def boolWords : List (String × Bool) :=
  [("yes", true), ("true", true), ("on", true), ("no", false), ("false", false), ("off", false)]

/-- A word with its first letter in upper case. -/
def capitalized (word : String) : String :=
  match word.toList with
  | [] => word
  | c :: rest => String.ofList (c.toUpper :: rest)

/-- A word in lower case, capitalised and in upper case. -/
def spellings (word : String) : List String := [word, capitalized word, word.map Char.toUpper]

def isBool (s : String) : Bool := boolWords.any fun (word, _) => (spellings word).contains s

def isNull (s : String) : Bool := s = "" || s = "~" || (spellings "null").contains s

def isDigitOr (c : Char) : Bool := isDigit c || c = '_'

def withoutSign (text : List Char) : List Char :=
  match text with
  | '-' :: rest | '+' :: rest => rest
  | rest => rest

/-- Whether a text is a run of at least one character of a class. -/
def isRun (p : Char → Bool) (text : List Char) : Bool := !text.isEmpty && text.all p

/-- Whether a text is a digit and then digits and underscores. -/
def isGrouped (text : List Char) : Bool :=
  match text with
  | c :: rest => isDigit c && rest.all isDigitOr
  | [] => false

/-- Whether a text is a number below sixty. -/
def isSixtieth (text : List Char) : Bool :=
  match text with
  | [c] => isDigit c
  | [c, d] => '0' ≤ c && c ≤ '5' && isDigit d
  | _ => false

/-- Whether a text is a grouped number and then at least one sixtieth, with colons between. -/
def isSexagesimal (text : List Char) : Bool :=
  match Text.fields ':' text with
  | first :: second :: others => isGrouped first && (second :: others).all isSixtieth
  | _ => false

def isDecimal (text : List Char) : Bool := text = ['0'] || (isGrouped text && text.head? != some '0')

def isInt (text : List Char) : Bool :=
  let body := withoutSign text
  match body with
  | '0' :: 'b' :: digits => isRun (fun c => c = '0' || c = '1' || c = '_') digits
  | '0' :: 'x' :: digits => isRun (fun c => (digit? c).isSome || c = '_') digits
  | '0' :: c :: digits => (c :: digits).all fun d => ('0' ≤ d && d ≤ '7') || d = '_'
  | _ => isDecimal body || (isSexagesimal body && body.head? != some '0')

/-- Whether a text is nothing or an exponent with a sign. -/
def isExponent (text : List Char) : Bool :=
  match text with
  | [] => true
  | e :: sign :: digits =>
    (e = 'e' || e = 'E') && (sign = '-' || sign = '+') && isRun isDigit digits
  | _ => false

/-- Whether a text is a fraction's digits and an exponent. -/
def isFraction (text : List Char) : Bool := isExponent (text.dropWhile isDigitOr)

def infinityWords : List (List Char) := [".inf", ".Inf", ".INF"].map String.toList

def nanWords : List (List Char) := [".nan", ".NaN", ".NAN"].map String.toList

def isFloat (text : List Char) : Bool :=
  let body := withoutSign text
  let whole := body.takeWhile fun c => isDigitOr c || c = ':'
  let behind := body.drop whole.length
  infinityWords.contains body || nanWords.contains text ||
    (match behind with
    | '.' :: fraction =>
      (isGrouped whole && isFraction fraction) ||
        (isSexagesimal whole && fraction.all isDigitOr)
    | _ => false) ||
    (match text with
    | '.' :: c :: rest => isDigit c && isFraction rest
    | _ => false)

end Implicit

/-- The type of a text without a line feed at its end. -/
def lineTag (s : String) : Tag :=
  let text := s.toList
  if Implicit.isBool s then .bool
  else if Implicit.isFloat text then .float
  else if Implicit.isInt text then .int
  else if s = "<<" then .merge
  else if Implicit.isNull s then .null
  else if Timestamp.isTimestamp text then .timestamp
  else if s = "=" then .value
  else if s = "!" ∨ s = "&" ∨ s = "*" then .other
  else .str

/-- The type that the text of a plain scalar has. One line feed at its end makes no difference, unless
the text is nothing else. -/
def implicitTag (s : String) : Tag :=
  if s = "\n" then .str else lineTag (String.ofList (Timestamp.withoutFinalBreak s.toList))

end RouteInventory.Yaml
