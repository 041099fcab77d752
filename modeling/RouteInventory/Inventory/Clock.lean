import RouteInventory.Number.Digits

/-!
# The clock

The text of a moment in universal time: `2024-02-29T23:59:58.000001+00:00`. A whole second has no
fraction.
-/

namespace RouteInventory.Clock

open Number

/-- The year, month and day that are some days after the first of January 1970. Years are counted from
March, so that a leap day is the last of its year; 146097 days are four hundred years. -/
def civil (days : Nat) : Nat × Nat × Nat :=
  let shifted := days + 719468
  let era := shifted / 146097
  let day := shifted % 146097
  let year := (day - day / 1460 + day / 36524 - day / 146096) / 365
  let dayOfYear := day - (365 * year + year / 4 - year / 100)
  let month := (5 * dayOfYear + 2) / 153
  let dayOfMonth := dayOfYear - (153 * month + 2) / 5 + 1
  if month < 10 then (era * 400 + year, month + 3, dayOfMonth)
  else (era * 400 + year + 1, month - 9, dayOfMonth)

/-- The text of the moment that is some seconds and millionths of a second after the beginning of
1970. -/
def text (seconds microseconds : Nat) : String :=
  let (year, month, day) := civil (seconds / 86400)
  let time := seconds % 86400
  let date := padded 4 year ++ '-' :: padded 2 month ++ '-' :: padded 2 day
  let clock := padded 2 (time / 3600) ++ ':' :: padded 2 (time / 60 % 60) ++ ':' :: padded 2 (time % 60)
  let fraction := if microseconds = 0 then [] else '.' :: padded 6 microseconds
  String.ofList (date ++ 'T' :: clock ++ fraction) ++ "+00:00"

end RouteInventory.Clock
