import RoutingRules.Number.Text

/-!
# Headers of generated files

A header names the source of a file and the time of its making, in the calendar that is used
today, extended to all years.
-/

namespace RoutingRules

/-- A day of the calendar. -/
structure Header.Date where
  year : Int
  month : Nat
  day : Nat
deriving DecidableEq, Repr

namespace Header

/-- The date that lies `days` after the first of January 1970.  Years are counted from March, so
that the leap day is the last of its year, within cycles of 400 years. -/
def Date.ofDays (days : Int) : Date :=
  let shifted := days + 719468
  let cycle := shifted / 146097
  let day := (shifted % 146097).toNat
  let year := (day - day / 1460 + day / 36524 - day / 146096) / 365
  let inYear := day - (365 * year + year / 4 - year / 100)
  let month := (5 * inYear + 2) / 153
  { year := year + 400 * cycle + if month < 10 then 0 else 1
    month := if month < 10 then month + 3 else month - 9
    day := inYear - (153 * month + 2) / 5 + 1 }

/-- A number filled up with zeros. -/
def padded (width n : Nat) : String :=
  String.ofList (Number.zeroPadded width (Nat.toDigits 10 n))

/-- A year has four digits at least; it has a sign if it is negative or has more. -/
def yearText (year : Int) : String :=
  if year < 0 then "-" ++ padded 4 year.natAbs
  else if 9999 < year then "+" ++ Number.decimal year.natAbs
  else padded 4 year.natAbs

/-- The date and the time of day, in minutes, of a time in seconds. -/
def timeText (seconds : Int) : String :=
  let date := Date.ofDays (seconds / 86400)
  let minutes := (seconds % 86400).toNat / 60
  yearText date.year ++ "/" ++ padded 2 date.month ++ "/" ++ padded 2 date.day ++ " " ++
    padded 2 (minutes / 60) ++ ":" ++ padded 2 (minutes % 60)

/-- The line above and below a header. -/
def rule : String :=
  String.ofList ('#' :: ' ' :: List.replicate 78 '=')

/-- The seconds by which the clock of headers is ahead of universal time. -/
def clockOffset : Int :=
  28800

/-- The header of a file made from `source` at a time in seconds of a local clock. -/
def text (source : String) (seconds : Int) : String :=
  rule ++ "\n# THIS FILE IS AUTO-GENERATED FROM: " ++ source ++ "\n# AT " ++ timeText seconds ++
    ".\n" ++ rule

end Header

end RoutingRules
