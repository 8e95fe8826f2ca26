import ReturnAudit.Text.Bytes

/-!
# Timestamps

Which plain scalars are timestamps: a date of year, month and day, alone or followed by a time of
day. After blanks the time has no zone, after the letter T it has one.
-/

namespace ReturnAudit.Yaml.Timestamp

/-- Whether a byte is a decimal digit. -/
private def isDigit (b : UInt8) : Bool :=
  48 ≤ b && b ≤ 57

/-- The number that digits form. -/
private def value (digits : Bytes) : Nat :=
  digits.foldl (fun n b => 10 * n + (b.toNat - 48)) 0

/-- A number of exactly `width` digits. -/
private def fixed (width : Nat) (s : Bytes) : Option (Nat × Bytes) :=
  let digits := s.take width
  if digits.length = width && digits.all isDigit then some (value digits, s.drop width) else none

/-- A number of one or two digits. -/
private def short (s : Bytes) : Option (Nat × Bytes) :=
  (fixed 2 s).or (fixed 1 s)

/-- The text after a given byte. -/
private def after (char : Char) : Bytes → Option Bytes
  | b :: rest => if b = Bytes.ofChar char then some rest else none
  | [] => none

/-- Whether a year has a leap day. -/
def isLeap (year : Nat) : Bool :=
  year % 4 == 0 && (year % 100 != 0 || year % 400 == 0)

/-- The number of days of a month. -/
def daysIn (year month : Nat) : Nat :=
  if month == 2 then (if isLeap year then 29 else 28)
  else if [4, 6, 9, 11].contains month then 30
  else 31

/-- What follows a date. -/
private def date (s : Bytes) : Option Bytes := do
  let (year, s) ← fixed 4 s
  let (month, s) ← short (← after '-' s)
  guard (1 ≤ month && month ≤ 12)
  let (day, s) ← short (← after '-' s)
  guard (1 ≤ day && day ≤ daysIn year month)
  return s

/-- What follows a fraction of a second, if there is one. -/
private def fraction (s : Bytes) : Bytes :=
  match s with
  | mark :: digit :: rest =>
    if (mark = Bytes.ofChar '.' || mark = Bytes.ofChar ',') && isDigit digit then
      rest.dropWhile isDigit
    else s
  | s => s

/-- What follows a time of day. -/
private def time (s : Bytes) : Option Bytes := do
  let (hour, s) ← short s
  guard (hour < 24)
  let (minute, s) ← short (← after ':' s)
  guard (minute < 60)
  let (second, s) ← short (← after ':' s)
  guard (second < 60)
  return fraction s

/-- What follows a zone. -/
private def zone (s : Bytes) : Option Bytes :=
  (after 'Z' s).or do
    let s ← (after '+' s).or (after '-' s)
    let (hours, s) ← fixed 2 s
    let (minutes, s) ← fixed 2 (← after ':' s)
    guard (hours ≤ 24 && minutes ≤ 60)
    return s

/-- Whether a text is a timestamp. -/
def holds (s : Bytes) : Bool :=
  match date s with
  | none => false
  | some [] => true
  | some rest =>
    let zoned := do
      let rest ← (after 'T' rest).or (after 't' rest)
      zone (← time rest)
    let plain := do
      time ((← after ' ' rest).dropWhile (· = 32))
    zoned = some [] || plain = some []

end ReturnAudit.Yaml.Timestamp
