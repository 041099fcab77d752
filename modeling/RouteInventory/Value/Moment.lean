import RouteInventory.Number.Digits

/-!
# Moments

Dates and times of day. Two times on dates are the same moment if both are set against universal time
and fall on the same instant, or neither is and they read the same.
-/

namespace RouteInventory

structure Date where
  year : Nat
  month : Nat
  day : Nat
deriving DecidableEq, Repr

/-- A time of day; `offset` is the distance from universal time in seconds, if one is given. -/
structure TimeOfDay where
  hour : Nat
  minute : Nat
  second : Nat
  microsecond : Nat
  offset : Option Int
deriving DecidableEq, Repr

namespace Date

def isLeapYear (year : Nat) : Bool := year % 4 = 0 && (year % 100 != 0 || year % 400 = 0)

def daysIn (year month : Nat) : Nat :=
  if month = 2 then (if isLeapYear year then 29 else 28)
  else if [4, 6, 9, 11].contains month then 30
  else 31

/-- The days before a year, from the first year on. -/
def daysBeforeYear (year : Nat) : Nat :=
  let y := year - 1
  y * 365 + y / 4 - y / 100 + y / 400

/-- The days before a month, from the beginning of its year on. -/
def daysBeforeMonth (year : Nat) : (month : Nat) → Nat
  | 0 | 1 => 0
  | month + 1 => daysBeforeMonth year month + daysIn year month

/-- The number of a day, the first day of the first year being the first. -/
def ordinal (d : Date) : Nat := daysBeforeYear d.year + daysBeforeMonth d.year d.month + d.day

end Date

namespace TimeOfDay

/-- The microseconds from midnight on. -/
def microseconds (t : TimeOfDay) : Nat :=
  ((t.hour * 60 + t.minute) * 60 + t.second) * 1000000 + t.microsecond

end TimeOfDay

/-- A time on a date in microseconds, moved to universal time if its distance from it is given. -/
def instant (d : Date) (t : TimeOfDay) : Int :=
  (d.ordinal * 86400 : Nat) * 1000000 + t.microseconds - t.offset.getD 0 * 1000000

/-- Whether two times on dates can be put in order. -/
def areComparable (s t : TimeOfDay) : Bool := s.offset.isSome == t.offset.isSome

def isSameMoment (d : Date) (s : TimeOfDay) (e : Date) (t : TimeOfDay) : Bool :=
  areComparable s t && instant d s == instant e t

end RouteInventory
