import RouteInventory.Number.Digits

/-!
# Floating-point numbers

A 64-bit binary floating-point number is a whole number below 2^53 times a power of two between
2^-1074 and 2^971, with a sign, or one of the special values. Decimals are rounded to the nearest
such number, a tie going to the even mantissa, in exact arithmetic.
-/

namespace RouteInventory.Number

/-- A finite number has a mantissa of 53 bits, or fewer at the least exponent, -1074. -/
inductive Binary64
  | nan
  | infinite (negative : Bool)
  | finite (negative : Bool) (mantissa : Nat) (exponent : Int)
deriving DecidableEq, Repr

/-- A quotient rounded to the nearest whole number, a half to the even one. -/
def roundHalfEven (num den : Nat) : Nat :=
  let q := num / den
  let r := num % den
  if 2 * r < den then q
  else if den < 2 * r then q + 1
  else if q % 2 = 0 then q else q + 1

namespace Binary64

def zero (negative : Bool) : Binary64 := finite negative 0 (-1074)

/-- The number nearest to a quotient. -/
def ofRatio (negative : Bool) (num den : Nat) : Binary64 :=
  if num = 0 then zero negative
  else
    let k : Int := (num.log2 : Int) - den.log2
    let atLeast := den * Nat.pow 2 k.toNat ≤ num * Nat.pow 2 (-k).toNat
    let e : Int := max (-1074) (if atLeast then k - 52 else k - 53)
    let m := roundHalfEven (num * Nat.pow 2 (-e).toNat) (den * Nat.pow 2 e.toNat)
    if m = Nat.pow 2 53 then
      if e + 1 > 971 then infinite negative else finite negative (Nat.pow 2 52) (e + 1)
    else if e > 971 then infinite negative
    else finite negative m e

/-- The number nearest to a whole number of decimal units. -/
def ofDecimal (negative : Bool) (units : Nat) (exponent : Int) : Binary64 :=
  let size := (decimal units).length + exponent
  if units = 0 ∨ size < -330 then zero negative
  else if size > 310 then infinite negative
  else ofRatio negative (units * Nat.pow 10 exponent.toNat) (Nat.pow 10 (-exponent).toNat)

/-- The exact value of a finite number as a quotient. -/
def ratio? : Binary64 → Option (Int × Nat)
  | finite negative m e =>
    let num : Int := (m * Nat.pow 2 e.toNat : Nat)
    some (if negative then -num else num, Nat.pow 2 (-e).toNat)
  | _ => none

def isInteger (x : Binary64) : Bool :=
  match x.ratio? with
  | some (num, den) => num % den == 0
  | none => false

/-- A number with its digits before and after the point and its decimal exponent. -/
def ofParts (negative : Bool) (whole fraction : List Char) (exponent : Int) : Binary64 :=
  ofDecimal negative (ofDigits 10 (whole ++ fraction)) (exponent - fraction.length)

/-- The sign in front of a number. -/
def splitSign : List Char → Bool × List Char
  | '-' :: rest => (true, rest)
  | '+' :: rest => (false, rest)
  | text => (false, text)

/-- Reads a decimal with an optional point and exponent, or the name of a special value. -/
def read? (text : List Char) : Option Binary64 :=
  let (negative, body) := splitSign text
  let name := String.ofList (body.map Char.toLower)
  if name = "nan" then some nan
  else if name = "inf" ∨ name = "infinity" then some (infinite negative)
  else
    let whole := body.takeWhile isDigit
    let afterWhole := body.dropWhile isDigit
    let (fraction, afterFraction) := match afterWhole with
      | '.' :: rest => (rest.takeWhile isDigit, rest.dropWhile isDigit)
      | rest => ([], rest)
    if whole.isEmpty && fraction.isEmpty then none
    else match afterFraction with
      | [] => some (ofParts negative whole fraction 0)
      | c :: rest =>
        if c != 'e' && c != 'E' then none
        else
          let (down, digits) := splitSign rest
          if digits.isEmpty || !digits.all isDigit then none
          else
            let n : Int := ofDigits 10 digits
            some (ofParts negative whole fraction (if down then -n else n))

end Binary64

end RouteInventory.Number
