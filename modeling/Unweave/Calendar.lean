/-!
# Dates

The date and time of a number of seconds since the start of 1970, in universal time.  Years are
counted from March, so that the day a leap year adds is the last one.
-/

namespace Unweave
namespace Calendar

/-- Days from March of year zero to the start of 1970. -/
def epochDay : Nat := 719468

/-- Days in four hundred years. -/
def eraDays : Nat := 146097

structure Date where
  year : Nat
  month : Nat
  day : Nat
deriving DecidableEq, Repr

/-- The date that many days after the start of 1970. -/
def dateOf (days : Nat) : Date :=
  let n := days + epochDay
  let dayOfEra := n % eraDays
  let yearOfEra := (dayOfEra - dayOfEra / 1460 + dayOfEra / 36524 - dayOfEra / 146096) / 365
  let dayOfYear := dayOfEra - (365 * yearOfEra + yearOfEra / 4 - yearOfEra / 100)
  let m := (5 * dayOfYear + 2) / 153
  let month := if m < 10 then m + 3 else m - 9
  { year := yearOfEra + 400 * (n / eraDays) + (if month ≤ 2 then 1 else 0), month,
    day := dayOfYear - (153 * m + 2) / 5 + 1 }

/-- A number with zeros in front up to a width. -/
def padded (width n : Nat) : String :=
  let digits := Nat.toDigits 10 n
  String.ofList (List.replicate (width - digits.length) '0' ++ digits)

/-- `2024-02-29T12:34:56Z` -/
def render (seconds : Nat) : String :=
  let date := dateOf (seconds / 86400)
  let s := seconds % 86400
  padded 4 date.year ++ "-" ++ padded 2 date.month ++ "-" ++ padded 2 date.day ++ "T" ++
    padded 2 (s / 3600) ++ ":" ++ padded 2 (s / 60 % 60) ++ ":" ++ padded 2 (s % 60) ++ "Z"

example : render 0 = "1970-01-01T00:00:00Z" := by decide +kernel

example : render 1709210096 = "2024-02-29T12:34:56Z" := by decide +kernel

example : render 4107542399 = "2100-02-28T23:59:59Z" := by decide +kernel

end Calendar
end Unweave
