import RouteInventory.Number.Binary64

/-!
# Shortest decimals

The text of a floating-point number has the fewest digits that read back to it; of two such decimals
the nearer one, a tie going to the even digit.
-/

namespace RouteInventory.Number

/-- Whether a power of ten is at most a positive quotient. -/
def powerAtMost (num den : Nat) (p : Int) : Bool :=
  den * Nat.pow 10 p.toNat ≤ num * Nat.pow 10 (-p).toNat

/-- The decimal exponent of the leading digit of a positive quotient. -/
def leadingExponent (num den : Nat) : Int :=
  let guess : Int := ((num.log2 : Int) - den.log2) * 30103 / 100000 - 1
  ([guess + 3, guess + 2, guess + 1].find? (powerAtMost num den)).getD guess

/-- The number of units 10^e nearest to a positive quotient among its two neighbours on that grid
that read back to the given number. -/
def gridHit (x : Binary64) (num den : Nat) (e : Int) : Option Nat :=
  let n := num * Nat.pow 10 (-e).toNat
  let d := den * Nat.pow 10 e.toNat
  let low := n / d
  let lowHits := Binary64.ofDecimal false low e == x
  let highHits := Binary64.ofDecimal false (low + 1) e == x
  if lowHits && highHits then some (roundHalfEven n d)
  else if lowHits then some low
  else if highHits then some (low + 1)
  else none

/-- The shortest decimal that reads back to a positive number, as units and their exponent. -/
def shortest (x : Binary64) (num den : Nat) : Nat × Int :=
  let p := leadingExponent num den
  let grids := (List.range 17).map fun n : Nat => p - (n : Int)
  (grids.findSome? fun e => (gridHit x num den e).map (·, e)).getD
    (roundHalfEven (num * Nat.pow 10 (16 - p).toNat) (den * Nat.pow 10 (p - 16).toNat), p - 16)

/-- The digits of a number of units without the trailing zeros, and the exponent of the last. -/
def trimZeros (digits : List Char) (e : Int) : List Char × Int :=
  let kept := (digits.reverse.dropWhile (· = '0')).reverse
  (kept, e + (digits.length - kept.length : Nat))

/-- Exponents of the leading digit from -4 to 15 are written positionally, with a point and at least
one digit after it; others with a signed exponent of at least two digits. -/
def layOut (digits : List Char) (e : Int) : List Char :=
  let lead := e + digits.length - 1
  if -4 ≤ lead ∧ lead < 16 then
    if 0 ≤ e then digits ++ List.replicate e.toNat '0' ++ ['.', '0']
    else if 0 ≤ lead then
      digits.take (lead + 1).toNat ++ '.' :: digits.drop (lead + 1).toNat
    else '0' :: '.' :: List.replicate (-lead - 1).toNat '0' ++ digits
  else
    let fraction := if digits.length ≤ 1 then [] else '.' :: digits.drop 1
    digits.take 1 ++ fraction ++ 'e' :: (if lead < 0 then '-' else '+') :: padded 2 lead.natAbs

namespace Binary64

/-- The text of a number. -/
def text : Binary64 → List Char
  | nan => "nan".toList
  | infinite negative => (if negative then "-inf" else "inf").toList
  | finite negative m e =>
    let body :=
      if m = 0 then "0.0".toList
      else
        let (units, unitExponent) :=
          shortest (finite false m e) (m * Nat.pow 2 e.toNat) (Nat.pow 2 (-e).toNat)
        let (digits, last) := trimZeros (decimal units) unitExponent
        layOut digits last
    if negative then '-' :: body else body

end Binary64

end RouteInventory.Number
