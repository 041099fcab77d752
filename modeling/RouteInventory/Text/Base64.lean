import RouteInventory.Text.Utf8

/-!
# Base 64

Bytes written as characters of six bits each. Characters outside the alphabet are passed over; the
last group of four is filled up with equals signs, behind which nothing counts.
-/

namespace RouteInventory.Text.Base64

def digit? (c : Char) : Option Nat :=
  if 'A' ≤ c && c ≤ 'Z' then some (c.toNat - 'A'.toNat)
  else if 'a' ≤ c && c ≤ 'z' then some (c.toNat - 'a'.toNat + 26)
  else if '0' ≤ c && c ≤ '9' then some (c.toNat - '0'.toNat + 52)
  else if c = '+' then some 62
  else if c = '/' then some 63
  else none

/-- The bytes of a run of digits, left over ones dropped. -/
def bytesOf : List Nat → Bytes
  | a :: b :: c :: d :: rest =>
    let n := ((a * 64 + b) * 64 + c) * 64 + d
    UInt8.ofNat (n / 65536) :: UInt8.ofNat (n / 256) :: UInt8.ofNat n :: bytesOf rest
  | [a, b, c] =>
    let n := (a * 64 + b) * 64 + c
    [UInt8.ofNat (n / 1024), UInt8.ofNat (n / 4)]
  | [a, b] => [UInt8.ofNat ((a * 64 + b) / 16)]
  | _ => []

/-- The digits up to the filling, given the number of digits and of equals signs since. An incomplete
group without filling is refused. -/
def digits? (count pads : Nat) : List Char → Option (List Nat)
  | [] => if count % 4 = 0 then some [] else none
  | c :: rest =>
    if c = '=' then
      if count % 4 ≥ 2 then
        if count % 4 + pads + 1 ≥ 4 then some [] else digits? count (pads + 1) rest
      else digits? count pads rest
    else
      match digit? c with
      | some d => (digits? (count + 1) 0 rest).map (d :: ·)
      | none => digits? count pads rest

def decode? (text : List Char) : Option Bytes := (digits? 0 0 text).map bytesOf

end RouteInventory.Text.Base64
