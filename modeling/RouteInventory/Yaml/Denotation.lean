import RouteInventory.Number.Arithmetic
import RouteInventory.Number.Written
import RouteInventory.Text.Base64
import RouteInventory.Text.Case
import RouteInventory.Yaml.Fault
import RouteInventory.Yaml.Graph

/-!
# What scalars denote

The value of a scalar's text by its type. Numbers may be grouped by low lines, and parts between colons
are sixtieths of the one before. A mapping can stand for a scalar: for the one under an equals sign.
-/

namespace RouteInventory.Yaml

open Number

namespace Denotation

def withoutGrouping (text : List Char) : List Char := text.filter (· != '_')

/-- A number's sign, if it has one in front, and the text behind it. -/
def splitSign (text : List Char) : Except Fault (Bool × List Char) :=
  if text.isEmpty then .error .noDigits else .ok (Binary64.splitSign text)

/-- A whole number in a base. -/
def whole (base : Nat) (text : List Char) : Except Fault Int :=
  (readWhole base text).mapError fun fault => match fault with
    | .malformed => .notWhole base text
    | .tooLong digits => .tooLong digits

/-- The whole number whose parts between colons are sixtieths of the one before. -/
def wholeSixtieths (text : List Char) : Except Fault Int := do
  let parts ← (Text.fields ':' text).mapM (whole 10)
  return parts.foldl (fun n part => n * 60 + part) 0

/-- A whole number behind its sign: a zero in front marks another base than ten. -/
def magnitude : List Char → Except Fault Int
  | [] => .error .noDigits
  | ['0'] => .ok 0
  | '0' :: 'b' :: digits => whole 2 digits
  | '0' :: 'x' :: digits => whole 16 digits
  | '0' :: digits => whole 8 ('0' :: digits)
  | text => if text.contains ':' then wholeSixtieths text else whole 10 text

def int (text : List Char) : Except Fault Int := do
  let (negative, body) ← splitSign (withoutGrouping text)
  let n ← magnitude body
  return if negative then -n else n

def decimal (text : List Char) : Except Fault Binary64 :=
  match readFloat? text with
  | some x => .ok x
  | none => .error (.notFloat text)

/-- The sum of parts that are worth sixty times as much from one to the next, the last one first; the
worth has to be a number itself. -/
def sumSixtieths (sum : Binary64) (worth : Nat) : List Binary64 → Except Fault Binary64
  | [] => .ok sum
  | part :: rest =>
    match Binary64.ofRatio false worth 1 with
    | .infinite _ => .error .tooLarge
    | w => sumSixtieths (sum.add (part.mul w)) (worth * 60) rest

def floatSixtieths (text : List Char) : Except Fault Binary64 := do
  let parts ← (Text.fields ':' text).mapM decimal
  sumSixtieths (.zero false) 1 parts.reverse

def float (text : List Char) : Except Fault Binary64 := do
  let (negative, body) ← splitSign (Text.lower (withoutGrouping text))
  let x ←
    if body = ".inf".toList then pure (Binary64.infinite false)
    else if body = ".nan".toList then pure Binary64.nan
    else if body.contains ':' then floatSixtieths body
    else decimal body
  return if negative then x.negate else x

def bool (text : List Char) : Except Fault Bool :=
  let word := Text.lower text
  match Implicit.boolWords.lookup (String.ofList word) with
  | some b => .ok b
  | none => .error (.unknownWord word)

def bytes (text : List Char) : Except Fault Text.Bytes :=
  match if text.all (·.toNat < 128) then Text.Base64.decode? text else none with
  | some content => .ok content
  | none => .error .malformed

def timestamp (text : List Char) : Except Fault Value :=
  match Timestamp.read? text with
  | some parts => parts.value.mapError .noMoment
  | none => .error .notTimestamp

/-- The value of a text as a type. -/
def value (tag : Tag) (text : List Char) : Except Fault Value :=
  match tag with
  | .null => .ok .null
  | .bool => (bool text).map .bool
  | .int => (int text).map .int
  | .float => (float text).map .float
  | .str => .ok (.text (String.ofList text))
  | .binary => (bytes text).map .bytes
  | .timestamp => timestamp text
  | _ => .error .malformed

end Denotation

namespace Nodes

/-- The text of a scalar, or of the scalar that a mapping stands for. -/
def scalarText (nodes : Nodes) (n : Nat) : (fuel : Nat) → Except Fault (List Char)
  | 0 => .error .malformed
  | fuel + 1 =>
    match nodes.content? n with
    | some (.scalar text) => .ok text.toList
    | some (.mapping entries) =>
      match entries.find? fun (key, _) => nodes.tag key = .value with
      | some (_, value) => scalarText nodes value fuel
      | none => .error .malformed
    | _ => .error .malformed

/-- The value of a node that is a scalar or stands for one. -/
def scalarValue (nodes : Nodes) (n : Nat) : Except Fault Value := do
  let text ← nodes.scalarText n (nodes.size + 1)
  if nodes.tag n = .timestamp && nodes.isMapping n then throw .timestampOfMapping
  Denotation.value (nodes.tag n) text

end Nodes

end RouteInventory.Yaml
