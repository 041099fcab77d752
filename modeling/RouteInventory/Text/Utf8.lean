/-!
# UTF-8

A byte sequence is read one scalar value at a time. Where it is malformed, `next` tells how many
bytes belong together as one fault: the longest beginning of a well-formed sequence, or a single
byte. The strict reading refuses at the first fault, the lenient one puts U+FFFD for each. Text read
from files has its line ends made line feeds.
-/

namespace RouteInventory.Text

abbrev Bytes := List UInt8

/-- Why a byte sequence is no UTF-8. -/
inductive Malformed
  | invalidStart
  | invalidContinuation
  | unexpectedEnd
deriving DecidableEq, Repr

namespace Malformed

def message : Malformed → String
  | invalidStart => "invalid start byte"
  | invalidContinuation => "invalid continuation byte"
  | unexpectedEnd => "unexpected end of data"

end Malformed

/-- A refused byte sequence: its offset, the bytes at fault and the reason. -/
structure DecodeFault where
  start : Nat
  faulty : Bytes
  reason : Malformed
deriving DecidableEq, Repr

namespace Utf8

/-- What stands at the beginning of a byte sequence. -/
inductive Step
  | done
  | scalar (c : Char) (rest : Bytes)
  | fault (reason : Malformed) (length : Nat)

def isContinuation (b : UInt8) : Bool := 0x80 ≤ b && b ≤ 0xbf

/-- The second bytes that may follow a lead byte: sequences must be shortest, and neither surrogates
nor values beyond U+10FFFF are encoded. -/
def secondFits (lead second : UInt8) : Bool :=
  if lead = 0xe0 then 0xa0 ≤ second && second ≤ 0xbf
  else if lead = 0xed then 0x80 ≤ second && second ≤ 0x9f
  else if lead = 0xf0 then 0x90 ≤ second && second ≤ 0xbf
  else if lead = 0xf4 then 0x80 ≤ second && second ≤ 0x8f
  else isContinuation second

/-- The number of bytes in a sequence with the given lead byte. -/
def sequenceLength (lead : UInt8) : Option Nat :=
  if lead < 0x80 then some 1
  else if 0xc2 ≤ lead && lead ≤ 0xdf then some 2
  else if 0xe0 ≤ lead && lead ≤ 0xef then some 3
  else if 0xf0 ≤ lead && lead ≤ 0xf4 then some 4
  else none

/-- The payload of a continuation byte put behind the bits read so far. -/
def extend (bits : Nat) (b : UInt8) : Nat := bits * 64 + b.toNat % 64

def next : Bytes → Step
  | [] => .done
  | lead :: rest =>
    match sequenceLength lead with
    | none => .fault .invalidStart 1
    | some 1 => .scalar (Char.ofNat lead.toNat) rest
    | some 2 =>
      match rest with
      | [] => .fault .unexpectedEnd 1
      | b :: rest =>
        if secondFits lead b then .scalar (Char.ofNat (extend (lead.toNat % 32) b)) rest
        else .fault .invalidContinuation 1
    | some 3 =>
      match rest with
      | [] => .fault .unexpectedEnd 1
      | b :: rest =>
        if secondFits lead b then
          match rest with
          | [] => .fault .unexpectedEnd 2
          | c :: rest =>
            if isContinuation c then
              .scalar (Char.ofNat (extend (extend (lead.toNat % 16) b) c)) rest
            else .fault .invalidContinuation 2
        else .fault .invalidContinuation 1
    | some _ =>
      match rest with
      | [] => .fault .unexpectedEnd 1
      | b :: rest =>
        if secondFits lead b then
          match rest with
          | [] => .fault .unexpectedEnd 2
          | c :: rest =>
            if isContinuation c then
              match rest with
              | [] => .fault .unexpectedEnd 3
              | d :: rest =>
                if isContinuation d then
                  .scalar (Char.ofNat (extend (extend (extend (lead.toNat % 8) b) c) d)) rest
                else .fault .invalidContinuation 3
            else .fault .invalidContinuation 2
        else .fault .invalidContinuation 1

theorem length_lt_of_next_eq_scalar {bytes rest : Bytes} {c : Char}
    (h : next bytes = .scalar c rest) : rest.length < bytes.length := by
  revert h
  fun_cases next bytes <;> intro h <;> simp_all <;> omega

/-- The scalar values of a byte sequence read strictly from an offset on. -/
def decodeFrom (offset : Nat) (bytes : Bytes) : Except DecodeFault (List Char) :=
  match h : next bytes with
  | .done => .ok []
  | .scalar c rest =>
    have := length_lt_of_next_eq_scalar h
    (decodeFrom (offset + (bytes.length - rest.length)) rest).map (c :: ·)
  | .fault reason length => .error ⟨offset, bytes.take length, reason⟩
termination_by bytes.length

def decode (bytes : Bytes) : Except DecodeFault (List Char) := decodeFrom 0 bytes

/-- The scalar values of a byte sequence, with U+FFFD for each fault. -/
def decodeLenient (bytes : Bytes) : List Char :=
  match h : next bytes with
  | .done => []
  | .scalar c rest =>
    have := length_lt_of_next_eq_scalar h
    c :: decodeLenient rest
  | .fault _ length =>
    if h' : bytes = [] then []
    else
      have : (bytes.drop (max 1 length)).length < bytes.length := by
        have := List.length_pos_iff.mpr h'
        simp only [List.length_drop]
        omega
      Char.ofNat 0xfffd :: decodeLenient (bytes.drop (max 1 length))
termination_by bytes.length

/-- The bytes of a scalar value. -/
def encodeChar (c : Char) : Bytes :=
  let n := c.toNat
  if n < 0x80 then [UInt8.ofNat n]
  else if n < 0x800 then [UInt8.ofNat (0xc0 + n / 64), UInt8.ofNat (0x80 + n % 64)]
  else if n < 0x10000 then
    [UInt8.ofNat (0xe0 + n / 4096), UInt8.ofNat (0x80 + n / 64 % 64), UInt8.ofNat (0x80 + n % 64)]
  else
    [UInt8.ofNat (0xf0 + n / 262144), UInt8.ofNat (0x80 + n / 4096 % 64),
      UInt8.ofNat (0x80 + n / 64 % 64), UInt8.ofNat (0x80 + n % 64)]

def encode (text : List Char) : Bytes := text.flatMap encodeChar

/-- Reads a byte sequence that arrives in pieces of the given size, up to the first piece with a fault. A
sequence cut off by the end of a piece is kept for the next, and offsets count from the bytes kept. -/
def decodePieces (size : Nat) (kept : Bytes) (bytes : Bytes) : List Char × Option DecodeFault :=
  let behind (text : List Char) (others : List Char × Option DecodeFault) :=
    (text ++ others.1, others.2)
  if h : bytes = [] ∨ size = 0 then
    -- nothing more will come, so a sequence that is cut off is a fault now
    match decode (kept ++ bytes) with
    | .ok text => (text, none)
    | .error fault => ([], some fault)
  else
    have : (bytes.drop size).length < bytes.length := by
      have := List.length_pos_iff.mpr (fun e => h (.inl e))
      simp only [List.length_drop]
      omega
    let piece := kept ++ bytes.take size
    match decode piece with
    | .ok text => behind text (decodePieces size [] (bytes.drop size))
    | .error fault =>
      if fault.reason = .unexpectedEnd then
        match decode (piece.take fault.start) with
        | .ok text => behind text (decodePieces size fault.faulty (bytes.drop size))
        | .error fault => ([], some fault)
      else ([], some fault)
termination_by bytes.length

end Utf8

/-- Carriage returns, alone or before a line feed, made line feeds. -/
def unifyNewlines : List Char → List Char
  | [] => []
  | '\r' :: '\n' :: rest => '\n' :: unifyNewlines rest
  | c :: rest => (if c = '\r' then '\n' else c) :: unifyNewlines rest

end RouteInventory.Text
