import RouteInventory.Number.Digits
import RouteInventory.Value.Literal

/-!
# Timestamps

Dates, and times on a date: `2001-12-14`, `2001-12-14t21:59:43.10-05:00`. The parts of a time may be
set apart by blanks. A text of this form need not be a date that there is.
-/

namespace RouteInventory.Yaml.Timestamp

open Number

/-- The parts of a timestamp as they are written. -/
structure Parts where
  year : Nat
  month : Nat
  day : Nat
  /-- Whether month and day have two digits each. -/
  padded : Bool
  time : Option TimeOfDay
deriving Repr

/-- A run of digits of a permitted length. -/
def digits? (least most : Nat) (text : List Char) : Option (List Char × List Char) :=
  let run := (text.takeWhile isDigit).take most
  if least ≤ run.length then some (run, text.drop run.length) else none

def mark? (c : Char) : List Char → Option (List Char)
  | x :: rest => if x = c then some rest else none
  | [] => none

def isBlank (c : Char) : Bool := c = ' ' || c = '\t'

/-- What follows the separator of date and time. -/
def afterSeparator? (text : List Char) : Option (List Char) :=
  match text with
  | 'T' :: rest | 't' :: rest => some rest
  | c :: rest => if isBlank c then some (rest.dropWhile isBlank) else none
  | [] => none

/-- The first six digits of a fraction, in millionths. -/
def microseconds (fraction : List Char) : Nat :=
  let run := fraction.take 6
  ofDigits 10 run * Nat.pow 10 (6 - run.length)

/-- The minutes of a distance from universal time, if they are given. -/
def offsetMinutes? (text : List Char) : Option (Nat × List Char) :=
  match text with
  | ':' :: rest => (digits? 2 2 rest).map fun (m, rest) => (ofDigits 10 m, rest)
  | rest => some (0, rest)

/-- The zone at the end of a time, in seconds from universal time. -/
def zone? (text : List Char) : Option (Option Int) :=
  match text.dropWhile isBlank with
  | [] => if text.isEmpty then some none else none
  | ['Z'] => some (some 0)
  | sign :: rest =>
    if sign != '+' && sign != '-' then none
    else do
      let (h, rest) ← digits? 1 2 rest
      let (m, rest) ← offsetMinutes? rest
      let seconds : Int := (ofDigits 10 h * 60 + m) * 60
      if rest.isEmpty then return some (if sign = '-' then -seconds else seconds) else none

def time? (text : List Char) : Option TimeOfDay := do
  let (h, rest) ← digits? 1 2 text
  let (m, rest) ← digits? 2 2 (← mark? ':' rest)
  let (s, rest) ← digits? 2 2 (← mark? ':' rest)
  let (fraction, rest) := match rest with
    | '.' :: rest => (rest.takeWhile isDigit, rest.dropWhile isDigit)
    | rest => ([], rest)
  return ⟨ofDigits 10 h, ofDigits 10 m, ofDigits 10 s, microseconds fraction, ← zone? rest⟩

/-- A text without the line feed at its end, if it has one. -/
def withoutFinalBreak (text : List Char) : List Char :=
  if text.getLast? = some '\n' then text.dropLast else text

/-- The parts of a timestamp; a line feed may follow. -/
def read? (text : List Char) : Option Parts := do
  let (y, rest) ← digits? 4 4 (withoutFinalBreak text)
  let (m, rest) ← digits? 1 2 (← mark? '-' rest)
  let (d, rest) ← digits? 1 2 (← mark? '-' rest)
  let time ← if rest.isEmpty then some none else do
    let time ← time? (← afterSeparator? rest)
    some (some time)
  return ⟨ofDigits 10 y, ofDigits 10 m, ofDigits 10 d, m.length = 2 && d.length = 2, time⟩

/-- Whether a plain scalar is a timestamp. A date alone has two digits for month and day. -/
def isTimestamp (text : List Char) : Bool := (read? text).any fun p => p.padded || p.time.isSome

/-- The part of a timestamp that lies out of its range. -/
inductive Fault
  | year (n : Nat)
  | month
  | day
  | hour
  | minute
  | second
  | offset (seconds : Int)
deriving DecidableEq, Repr

namespace Fault

def message : Fault → String
  | year n => s!"year {n} is out of range"
  | month => "month must be in 1..12"
  | day => "day is out of range for month"
  | hour => "hour must be in 0..23"
  | minute => "minute must be in 0..59"
  | second => "second must be in 0..59"
  | offset seconds =>
    "offset must be a timedelta strictly between -timedelta(hours=24) and timedelta(hours=24), " ++
      s!"not {String.ofList (Value.durationLiteral seconds)}."

end Fault

/-- The first part of a date that lies out of its range. -/
def dateFault? (d : Date) : Option Fault :=
  if d.year = 0 then some (.year d.year)
  else if d.month = 0 || 12 < d.month then some .month
  else if d.day = 0 || Date.daysIn d.year d.month < d.day then some .day
  else none

/-- The first part of a time of day that lies out of its range. -/
def timeFault? (t : TimeOfDay) : Option Fault :=
  if 24 ≤ t.hour then some .hour
  else if 60 ≤ t.minute then some .minute
  else if 60 ≤ t.second then some .second
  else none

/-- The distance from universal time is less than a day. -/
def offsetFault? (offset : Option Int) : Option Fault :=
  (offset.filter fun o => 86400 ≤ o.natAbs).map .offset

namespace Parts

def date (p : Parts) : Date := ⟨p.year, p.month, p.day⟩

/-- The fault of a timestamp; one of the distance from universal time comes first. -/
def fault? (p : Parts) : Option Fault :=
  (p.time.bind fun t => offsetFault? t.offset).or
    ((dateFault? p.date).or (p.time.bind timeFault?))

/-- The date or time that the parts denote, if there is one. -/
def value (p : Parts) : Except Fault Value :=
  match p.fault?, p.time with
  | some fault, _ => .error fault
  | none, none => .ok (.date p.date)
  | none, some t => .ok (.dateTime p.date t)

end Parts

end RouteInventory.Yaml.Timestamp
