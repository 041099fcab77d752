import RouteInventory.Number.Binary64

/-!
# Arithmetic

Sums and products of floating-point numbers: the exact result, rounded once.
-/

namespace RouteInventory.Number.Binary64

def negate : Binary64 → Binary64
  | finite negative m e => finite (!negative) m e
  | infinite negative => infinite (!negative)
  | nan => nan

def isZero : Binary64 → Bool
  | finite _ m _ => m == 0
  | _ => false

def isNegative : Binary64 → Bool
  | finite negative _ _ => negative
  | infinite negative => negative
  | nan => false

/-- A whole number with a sign. -/
def signed (negative : Bool) (n : Nat) : Int := if negative then -(n : Int) else n

/-- The sum of two numbers. Opposite infinities have none. -/
def add : Binary64 → Binary64 → Binary64
  | nan, _ => nan
  | _, nan => nan
  | infinite a, infinite b => if a = b then infinite a else nan
  | infinite a, _ => infinite a
  | _, infinite b => infinite b
  | finite a m e, finite b n f =>
    let least := min e f
    let sum := signed a (m * Nat.pow 2 (e - least).toNat) + signed b (n * Nat.pow 2 (f - least).toNat)
    if sum = 0 then zero (a && b)
    else ofRatio (sum < 0) (sum.natAbs * Nat.pow 2 least.toNat) (Nat.pow 2 (-least).toNat)

/-- The product of two numbers. Zero and an infinity have none. -/
def mul : Binary64 → Binary64 → Binary64
  | nan, _ => nan
  | _, nan => nan
  | finite a m e, finite b n f =>
    ofRatio (a != b) (m * n * Nat.pow 2 (e + f).toNat) (Nat.pow 2 (-(e + f)).toNat)
  | x, y =>
    if x.isZero || y.isZero then nan else infinite (x.isNegative != y.isNegative)

end RouteInventory.Number.Binary64
