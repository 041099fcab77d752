import RouteInventory.Text.Quoted
import RouteInventory.Text.Utf8
import RouteInventory.Yaml.Timestamp

/-!
# Faults

Why a YAML text has no value: it cannot be decoded, it is malformed, or it is well formed with a scalar
that denotes nothing.
-/

namespace RouteInventory.Yaml

inductive Fault
  | malformed
  /-- The text ends inside quotes. -/
  | unfinished
  | undecodable (fault : Text.DecodeFault)
  | noCharacter (code : Nat)
  | unknownWord (word : List Char)
  | noDigits
  | notWhole (base : Nat) (text : List Char)
  | tooLong (digits : Nat)
  | notFloat (text : List Char)
  | tooLarge
  | notTimestamp
  | timestampOfMapping
  | noMoment (fault : Timestamp.Fault)
deriving DecidableEq, Repr

namespace Fault

/-- The greatest length of a text's literal in a complaint about whole numbers. -/
def maxQuoted : Nat := 200

/-- Whether a code does not even fit into a machine word. -/
def isHuge (code : Nat) : Bool := 0x80000000 ≤ code

def message : Fault → String
  | malformed | unfinished => "malformed YAML"
  | undecodable fault => fault.message
  | noCharacter code =>
    if isHuge code then "Python int too large to convert to C int"
    else "chr() arg not in range(0x110000)"
  | unknownWord word => String.ofList (Text.quoted word)
  | noDigits => "string index out of range"
  | notWhole base text =>
    let literal := String.ofList ((Text.quoted text).take maxQuoted)
    s!"invalid literal for int() with base {base}: {literal}"
  | tooLong digits => Number.tooLongToRead digits
  | notFloat text => s!"could not convert string to float: {String.ofList (Text.quoted text)}"
  | tooLarge => "int too large to convert to float"
  | notTimestamp => "'NoneType' object has no attribute 'groupdict'"
  | timestampOfMapping => "expected string or bytes-like object, got 'list'"
  | noMoment fault => fault.message

end Fault

end RouteInventory.Yaml
