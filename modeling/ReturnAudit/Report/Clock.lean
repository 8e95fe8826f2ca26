import ReturnAudit.Text.Numeral

/-!
# Times in reports

A time is a number of seconds since the start of 1970 and is written as a date and a time of day in
UTC. Days are counted from the first of March of the year 0, so that a leap day is the last day of
its year.
-/

namespace ReturnAudit.Clock

/-- A day of the calendar. -/
structure Date where
  /-- The year. -/
  year : Nat
  /-- The month, from one. -/
  month : Nat
  /-- The day, from one. -/
  day : Nat
  deriving DecidableEq, Repr

/-- The days from the first of March of the year 0 to the first of January of 1970. -/
def daysToEpoch : Nat := 719468

/-- The date of a day counted from the start of 1970. -/
def dateOf (days : Nat) : Date :=
  let day := days + daysToEpoch
  let era := day / 146097
  let inEra := day % 146097
  let yearOfEra := (inEra - inEra / 1460 + inEra / 36524 - inEra / 146096) / 365
  let inYear := inEra - (365 * yearOfEra + yearOfEra / 4 - yearOfEra / 100)
  let march := (5 * inYear + 2) / 153
  let month := if march < 10 then march + 3 else march - 9
  ⟨400 * era + yearOfEra + (if month ≤ 2 then 1 else 0), month, inYear - (153 * march + 2) / 5 + 1⟩

/-- A number with zeros in front, up to a width. -/
private def padded (width n : Nat) : Bytes :=
  let digits := Numeral.ofNat n
  List.replicate (width - digits.length) 48 ++ digits

/-- A time in seconds since the start of 1970, in UTC. -/
def text (seconds : Nat) : Bytes :=
  let date := dateOf (seconds / 86400)
  let rest := seconds % 86400
  padded 4 date.year ++ "-" ++ padded 2 date.month ++ "-" ++ padded 2 date.day ++ "T"
    ++ padded 2 (rest / 3600) ++ ":" ++ padded 2 (rest / 60 % 60) ++ ":"
    ++ padded 2 (rest % 60) ++ "Z"

example : dateOf 0 = ⟨1970, 1, 1⟩ := by decide

example : dateOf 11016 = ⟨2000, 2, 29⟩ := by decide

end ReturnAudit.Clock
