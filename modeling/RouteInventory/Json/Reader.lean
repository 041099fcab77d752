import RouteInventory.Json.Basic
import RouteInventory.Number.Digits
import RouteInventory.Text.Search

/-!
# Reading JSON

`Json.read` accepts a text that is one JSON value between blanks, and the names `NaN`, `Infinity` and
`-Infinity` for the special numbers; it refuses any other text with the first problem met and its
place. Of fields with the same name the last counts. The number of digits in which a whole number is
read may be limited, as it is for `Json.read`.
-/

namespace RouteInventory.Json

open Text Number

/-- Why a text is no JSON. -/
inductive Problem
  | byteOrderMark
  | valueExpected
  | nameExpected
  | colonExpected
  | commaExpected
  | extraData
  | unterminatedText
  | controlCharacter
  | invalidEscape
  | invalidUnicodeEscape
  | tooManyDigits (digits : Nat)
deriving DecidableEq, Repr

namespace Problem

def message : Problem → String
  | byteOrderMark => "Unexpected UTF-8 BOM (decode using utf-8-sig)"
  | valueExpected => "Expecting value"
  | nameExpected => "Expecting property name enclosed in double quotes"
  | colonExpected => "Expecting ':' delimiter"
  | commaExpected => "Expecting ',' delimiter"
  | extraData => "Extra data"
  | unterminatedText => "Unterminated string starting at"
  | controlCharacter => "Invalid control character at"
  | invalidEscape => "Invalid \\escape"
  | invalidUnicodeEscape => "Invalid \\uXXXX escape"
  | tooManyDigits digits => tooLongToRead digits

end Problem

/-- A problem, with the number of characters from its place to the end of the text. -/
structure ReadFault where
  problem : Problem
  remaining : Nat
deriving DecidableEq, Repr

/-- A problem and its place: line and column from one, offset from zero. -/
structure SyntaxFault where
  problem : Problem
  line : Nat
  column : Nat
  offset : Nat
deriving DecidableEq, Repr

namespace SyntaxFault

/-- The problem and its place; that a number is too long is said without one. -/
def message (f : SyntaxFault) : String :=
  match f.problem with
  | .tooManyDigits _ => f.problem.message
  | _ => s!"{f.problem.message}: line {f.line} column {f.column} (char {f.offset})"

/-- Places a fault in the text it was met in. -/
def locate (text : List Char) (f : ReadFault) : SyntaxFault :=
  let offset := text.length - f.remaining
  let before := text.take offset
  { problem := f.problem
    line := lineOf text offset
    column := (before.reverse.takeWhile (· != '\n')).length + 1
    offset := offset }

end SyntaxFault

def isSpace (c : Char) : Bool := c = ' ' || c = '\t' || c = '\n' || c = '\r'

def skipSpaces (text : List Char) : List Char := text.dropWhile isSpace

def isHexDigit (c : Char) : Bool := (digit? c).isSome

/-- The number written by four hexadecimal digits at the beginning of a text. -/
def fourHex? (text : List Char) : Option Nat :=
  let digits := text.take 4
  if digits.length = 4 && digits.all isHexDigit then some (ofDigits 16 digits) else none

def isHighSurrogate (n : Nat) : Bool := 0xd800 ≤ n && n ≤ 0xdbff

def isLowSurrogate (n : Nat) : Bool := 0xdc00 ≤ n && n ≤ 0xdfff

/-- The scalar value of a pair of surrogates. -/
def joinSurrogates (high low : Nat) : Nat := 0x10000 + (high - 0xd800) * 1024 + (low - 0xdc00)

/-- The character of a code; a surrogate that stands alone becomes U+FFFD. -/
def scalarOf (n : Nat) : Char :=
  if isHighSurrogate n || isLowSurrogate n then Char.ofNat 0xfffd else Char.ofNat n

/-- The character of a one-letter escape. -/
def simpleEscape? (c : Char) : Option Char :=
  if c = '"' || c = '\\' || c = '/' then some c
  else if c = 'b' then some (Char.ofNat 8)
  else if c = 'f' then some (Char.ofNat 12)
  else if c = 'n' then some '\n'
  else if c = 'r' then some '\r'
  else if c = 't' then some '\t'
  else none

/-- Reads an escape after its backslash: its character and the text after it. -/
def readEscape (start : Nat) : List Char → Except ReadFault (Char × List Char)
  | [] => .error ⟨.unterminatedText, start⟩
  | c :: rest =>
    if c != 'u' then
      match simpleEscape? c with
      | some d => .ok (d, rest)
      | none => .error ⟨.invalidEscape, rest.length + 2⟩
    else if rest.length ≤ 4 then .error ⟨.invalidUnicodeEscape, rest.length + 1⟩
    else
      match fourHex? rest with
      | none => .error ⟨.invalidUnicodeEscape, rest.length + 1⟩
      | some n =>
        let after := rest.drop 4
        if isHighSurrogate n && 6 < after.length && after.take 2 == ['\\', 'u'] then
          match fourHex? (after.drop 2) with
          | none => .error ⟨.invalidUnicodeEscape, after.length - 1⟩
          | some m =>
            if isLowSurrogate m then .ok (Char.ofNat (joinSurrogates n m), after.drop 6)
            else .ok (scalarOf n, after)
        else .ok (scalarOf n, after)

theorem length_lt_of_readEscape {start : Nat} {text rest : List Char} {c : Char}
    (h : readEscape start text = .ok (c, rest)) : rest.length < text.length := by
  revert h
  fun_cases readEscape start text <;> intro h <;>
    simp only [Except.ok.injEq, Prod.mk.injEq, reduceCtorEq] at h <;>
    rw [← h.2] <;> simp +zetaDelta only [List.length_drop, List.length_cons] <;> omega

/-- Reads the rest of a text value after its opening quote, which stands `start` characters before
the end of the whole text. -/
def readText (start : Nat) (text : List Char) : Except ReadFault (List Char × List Char) :=
  match text with
  | [] => .error ⟨.unterminatedText, start⟩
  | c :: rest =>
    if c = '"' then .ok ([], rest)
    else if c = '\\' then
      match h : readEscape start rest with
      | .error fault => .error fault
      | .ok (d, after) =>
        have : after.length < rest.length := length_lt_of_readEscape h
        (readText start after).map fun (body, tail) => (d :: body, tail)
    else if c.toNat < 0x20 then .error ⟨.controlCharacter, rest.length + 1⟩
    else (readText start rest).map fun (body, tail) => (c :: body, tail)
termination_by text.length
decreasing_by all_goals simp only [List.length_cons]; omega

/-- The digits of the whole part at the beginning of a text: a zero alone or no leading zero. -/
def wholePart (text : List Char) : List Char :=
  if text.head? == some '0' then ['0'] else text.takeWhile isDigit

/-- The digits after a point at the beginning of a text. -/
def fractionPart : List Char → List Char
  | '.' :: rest => rest.takeWhile isDigit
  | _ => []

/-- The exponent at the beginning of a text and its length. -/
def exponentPart : List Char → Option (Int × Nat)
  | c :: rest =>
    if c = 'e' || c = 'E' then
      let (down, digits) := Binary64.splitSign rest
      let digits := digits.takeWhile isDigit
      let signLength := if rest.head? == some '-' || rest.head? == some '+' then 1 else 0
      let n : Int := ofDigits 10 digits
      if digits.isEmpty then none
      else some (if down then -n else n, 1 + signLength + digits.length)
    else none
  | [] => none

/-- Reads a number: whole without point and exponent, else floating-point. A whole number has no more
digits than the limit. -/
def readNumber (limit : Option Nat) (text : List Char) : Except ReadFault (Json × List Char) :=
  let negative := text.head? == some '-'
  let body := if negative then text.drop 1 else text
  let whole := wholePart body
  if whole.isEmpty then .error ⟨.valueExpected, text.length⟩
  else
    let afterWhole := body.drop whole.length
    let fraction := fractionPart afterWhole
    let afterFraction :=
      if fraction.isEmpty then afterWhole else afterWhole.drop (fraction.length + 1)
    match exponentPart afterFraction with
    | some (e, length) =>
      .ok (float (Binary64.ofParts negative whole fraction e), afterFraction.drop length)
    | none =>
      if fraction.isEmpty && isBeyond limit whole.length then
        .error ⟨.tooManyDigits whole.length, text.length⟩
      else if fraction.isEmpty then
        let n : Int := ofDigits 10 whole
        .ok (int (if negative then -n else n), afterWhole)
      else .ok (float (Binary64.ofParts negative whole fraction 0), afterFraction)

/-- Reads a value that is a fixed word. -/
def readWord? (text : List Char) : Option (Json × List Char) :=
  [("null", null), ("true", bool true), ("false", bool false), ("NaN", float .nan),
    ("Infinity", float (.infinite false)), ("-Infinity", float (.infinite true))].findSome?
    fun (word, value) => (after? word.toList text).map (value, ·)

mutual

/-- Reads the value at the beginning of a text. A list or object within another spends two units of
fuel and at least one character. -/
def readValue (limit : Option Nat) : (fuel : Nat) → List Char → Except ReadFault (Json × List Char)
  | 0, chars => .error ⟨.valueExpected, chars.length⟩
  | _, [] => .error ⟨.valueExpected, 0⟩
  | fuel + 1, c :: rest =>
    if c = '"' then
      (readText (rest.length + 1) rest).map fun (body, after) => (text (String.ofList body), after)
    else if c = '[' then
      match skipSpaces rest with
      | ']' :: after => .ok (list [], after)
      | body => (readItems limit fuel body).map fun (items, after) => (list items, after)
    else if c = '\x7b' then
      match skipSpaces rest with
      | '\x7d' :: after => .ok (object [], after)
      | body => (readFields limit fuel body).map fun (fields, after) => (ofFields fields, after)
    else
      match readWord? (c :: rest) with
      | some found => .ok found
      | none => readNumber limit (c :: rest)

/-- Reads the items of a list from the first on, through the closing bracket. -/
def readItems (limit : Option Nat) : (fuel : Nat) → List Char → Except ReadFault (List Json × List Char)
  | 0, chars => .error ⟨.valueExpected, chars.length⟩
  | fuel + 1, chars =>
    match readValue limit fuel chars with
    | .error fault => .error fault
    | .ok (item, after) =>
      match skipSpaces after with
      | ']' :: rest => .ok ([item], rest)
      | ',' :: rest =>
        (readItems limit fuel (skipSpaces rest)).map fun (items, tail) => (item :: items, tail)
      | other => .error ⟨.commaExpected, other.length⟩

/-- Reads the fields of an object from the first on, through the closing brace. -/
def readFields (limit : Option Nat) :
    (fuel : Nat) → List Char → Except ReadFault (List (String × Json) × List Char)
  | 0, chars => .error ⟨.nameExpected, chars.length⟩
  | fuel + 1, chars =>
    match chars with
    | '"' :: rest =>
      match readText (rest.length + 1) rest with
      | .error fault => .error fault
      | .ok (name, afterName) =>
        match skipSpaces afterName with
        | ':' :: afterColon =>
          match readValue limit fuel (skipSpaces afterColon) with
          | .error fault => .error fault
          | .ok (value, after) =>
            let field := (String.ofList name, value)
            match skipSpaces after with
            | '\x7d' :: rest => .ok ([field], rest)
            | ',' :: rest =>
              (readFields limit fuel (skipSpaces rest)).map fun (fields, tail) => (field :: fields, tail)
            | other => .error ⟨.commaExpected, other.length⟩
        | other => .error ⟨.colonExpected, other.length⟩
    | other => .error ⟨.nameExpected, other.length⟩

end

/-- The JSON value that a text is, if no whole number in it has more digits than the limit. -/
def readWithin (limit : Option Nat) (text : List Char) : Except SyntaxFault Json :=
  let result : Except ReadFault Json :=
    if text.head? == some (Char.ofNat 0xfeff) then .error ⟨.byteOrderMark, text.length⟩
    else
      match readValue limit (2 * text.length + 2) (skipSpaces text) with
      | .error fault => .error fault
      | .ok (value, after) =>
        match skipSpaces after with
        | [] => .ok value
        | rest => .error ⟨.extraData, rest.length⟩
  result.mapError (SyntaxFault.locate text)

/-- The JSON value that a text is. -/
def read (text : List Char) : Except SyntaxFault Json := readWithin (some maxDigits) text

end RouteInventory.Json
