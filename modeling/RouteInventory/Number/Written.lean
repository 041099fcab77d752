import RouteInventory.Number.Binary64
import RouteInventory.Text.Blank
import RouteInventory.Text.Digit

/-!
# Written numbers

Numbers as they are written by hand: with blanks around them and in the digits of any script. A whole
number has a base and may begin with the mark of that base; in bases other than powers of two its
digits are limited in number.
-/

namespace RouteInventory.Number

open Text

/-- A blank at either end of a number. -/
def isMargin (c : Char) : Bool := (9 ≤ c.toNat && c.toNat ≤ 13) || c = ' '

/-- A character in ASCII: the digits of all scripts as digits, blanks as spaces. -/
def asciiChar (c : Char) : Char :=
  if c.toNat < 0x7f then c
  else if isBlank c then ' '
  else match digitWorth? c with
    | some worth => Char.ofNat ('0'.toNat + worth)
    | none => '?'

/-- A number without the blanks around it, in ASCII digits. -/
def asciiForm (text : List Char) : List Char := trim isMargin (text.map asciiChar)

/-- Why a text is no whole number. -/
inductive WholeFault
  | malformed
  | tooLong (digits : Nat)
deriving DecidableEq, Repr

/-- The letter that marks a base behind a zero. -/
def baseMark? (base : Nat) : Option Char :=
  if base = 2 then some 'b' else if base = 8 then some 'o' else if base = 16 then some 'x' else none

/-- The digits of a number behind the mark of its base, if it has one. -/
def withoutBaseMark (base : Nat) (text : List Char) : List Char :=
  match text with
  | '0' :: c :: rest => if baseMark? base = some c.toLower then rest else text
  | _ => text

def isDigitOf (base : Nat) (c : Char) : Bool := (digit? c).any (· < base)

/-- Whether the digits of a base are limited in number. -/
def isLimited (base : Nat) : Bool := (baseMark? base).isNone

/-- The whole number that a text denotes in a base. -/
def readWhole (base : Nat) (text : List Char) : Except WholeFault Int :=
  let (negative, body) := Binary64.splitSign (asciiForm text)
  let body := withoutBaseMark base body
  let digits := body.takeWhile (isDigitOf base)
  if isLimited base && maxDigits < digits.length then .error (.tooLong digits.length)
  else if digits.isEmpty || digits.length < body.length then .error .malformed
  else
    let n : Int := ofDigits base digits
    .ok (if negative then -n else n)

/-- A number without the low lines between its digits; none if one stands elsewhere. -/
def withoutGrouping? (previous : Option Char) : List Char → Option (List Char)
  | [] => if previous = some '_' then none else some []
  | c :: rest =>
    if c = '_' then
      if previous.any isDigit then withoutGrouping? (some c) rest else none
    else if previous = some '_' && !isDigit c then none
    else (withoutGrouping? (some c) rest).map (c :: ·)

/-- The floating-point number that a text denotes. -/
def readFloat? (text : List Char) : Option Binary64 := do
  Binary64.read? (← withoutGrouping? none (asciiForm text))

end RouteInventory.Number
