import RouteInventory.Text.Printable
import RouteInventory.Text.Utf8
import RouteInventory.Number.Digits

/-!
# Quoted text

A text in quotes, on one line and in printable characters. Single quotes are preferred; double ones
are taken when the text has single quotes and no double ones. Unprintable characters are written by
their number, in two, four or eight hexadecimal digits.
-/

namespace RouteInventory.Text

open Number

/-- The quote for a text. -/
def quoteFor (single double : Bool) : Char := if single && !double then '"' else '\''

def quotedChar (quote c : Char) : List Char :=
  if c = quote ∨ c = '\\' then ['\\', c]
  else if c = '\n' then ['\\', 'n']
  else if c = '\r' then ['\\', 'r']
  else if c = '\t' then ['\\', 't']
  else if isPrintable c then [c]
  else if c.toNat < 0x100 then '\\' :: 'x' :: hex 2 c.toNat
  else if c.toNat < 0x10000 then '\\' :: 'u' :: hex 4 c.toNat
  else '\\' :: 'U' :: hex 8 c.toNat

def quoted (text : List Char) : List Char :=
  let quote := quoteFor (text.contains '\'') (text.contains '"')
  quote :: text.flatMap (quotedChar quote) ++ [quote]

def quotedByte (quote : Char) (b : UInt8) : List Char :=
  if b < 0x80 then quotedChar quote (Char.ofNat b.toNat) else '\\' :: 'x' :: hex 2 b.toNat

/-- Bytes in quotes, the ASCII ones as characters. -/
def quotedBytes (bytes : Bytes) : List Char :=
  let quote := quoteFor (bytes.contains 0x27) (bytes.contains 0x22)
  'b' :: quote :: bytes.flatMap (quotedByte quote) ++ [quote]

end RouteInventory.Text

namespace RouteInventory.Text.DecodeFault

/-- A single byte is named; of several, the first and the last position. -/
def message (fault : DecodeFault) : String :=
  let place := match fault.faulty with
    | [b] =>
      s!"byte 0x{String.ofList (Number.hex 2 b.toNat)} in position {fault.start}"
    | bytes => s!"bytes in position {fault.start}-{fault.start + bytes.length - 1}"
  s!"'utf-8' codec can't decode {place}: {fault.reason.message}"

end RouteInventory.Text.DecodeFault
