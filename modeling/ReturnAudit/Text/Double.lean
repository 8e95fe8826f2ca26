import ReturnAudit.Text.Numeral

/-!
# Decimal numbers in double precision

A decimal numeral is read as a fraction of integers and rounded to the nearest number that a double
holds, ties going to the even one. Only the integer part of the result is needed, so a number is
kept as a whole multiple of a power of two.
-/

namespace ReturnAudit.Double

/-- A number in double precision: a sign and a magnitude, which is infinite or a multiple of a power
of two. -/
inductive Number where
  /-- `mantissa * 2 ^ exponent`, with a sign. -/
  | finite (negative : Bool) (mantissa : Nat) (exponent : Int)
  /-- An infinity. -/
  | infinite (negative : Bool)
  /-- What is no number. -/
  | notANumber
  deriving DecidableEq, Repr

/-- A quotient rounded to an integer, ties to even. -/
def roundDiv (num den : Nat) : Nat :=
  let q := num / den
  let r := num % den
  if den < 2 * r || (2 * r = den && q % 2 = 1) then q + 1 else q

/-- The least exponent of a double. -/
def minExponent : Int := -1074

/-- The exponent at which a positive fraction has a mantissa of at most 53 bits. -/
private def exponentOf (num den : Nat) : Int :=
  let estimate : Int := (num.log2 : Int) - (den.log2 : Int) - 53
  let fits (e : Int) : Bool :=
    if 0 ≤ e then num < den <<< (53 + e.toNat) else num <<< (-e).toNat < den <<< 53
  let e :=
    if fits estimate then estimate else if fits (estimate + 1) then estimate + 1 else estimate + 2
  max minExponent e

/-- The double nearest to a nonnegative fraction, as mantissa and exponent; `none` when it is too
large. -/
def nearest (num den : Nat) : Option (Nat × Int) :=
  if num = 0 then some (0, 0)
  else
    let e := exponentOf num den
    let mantissa :=
      if 0 ≤ e then roundDiv num (den <<< e.toNat) else roundDiv (num <<< (-e).toNat) den
    if 971 < e || (e = 971 && 1 <<< 53 ≤ mantissa) then none else some (mantissa, e)

/-- The double nearest to an integer. -/
def ofInt (n : Int) : Number :=
  match nearest n.natAbs 1 with
  | some (mantissa, exponent) => .finite (decide (n < 0)) mantissa exponent
  | none => .infinite (decide (n < 0))

/-- Whether a byte is a decimal digit. -/
private def isDigit (b : UInt8) : Bool :=
  48 ≤ b && b ≤ 57

/-- The number that digits form. -/
private def digitsValue (s : Bytes) : Nat :=
  s.foldl (fun n b => 10 * n + (b.toNat - 48)) 0

/-- The exponent that ends a numeral; nothing stands for zero. -/
private def readExponent (s : Bytes) : Option Int :=
  match s with
  | [] => some 0
  | mark :: rest =>
    if mark != 101 && mark != 69 then none
    else
      let (negative, digits) :=
        match rest with
        | 43 :: digits => (false, digits)
        | 45 :: digits => (true, digits)
        | digits => (false, digits)
      if digits.isEmpty || !digits.all isDigit then none
      else
        let n : Int := digitsValue digits
        some (if negative then -n else n)

/-- The largest power of ten that can matter beside the digits of a numeral. -/
private def farExponent : Int := 400

/-- The double that a decimal numeral stands for: a sign, digits with or without a point, an
exponent. Too large a number and a malformed numeral have none. -/
def read? (s : Bytes) : Option Number := do
  let (negative, s) :=
    match s with
    | 43 :: rest => (false, rest)
    | 45 :: rest => (true, rest)
    | rest => (false, rest)
  let whole := s.takeWhile isDigit
  let rest := s.drop whole.length
  let (fraction, rest) :=
    match rest with
    | 46 :: rest => (rest.takeWhile isDigit, rest.dropWhile isDigit)
    | rest => ([], rest)
  guard !(whole.isEmpty && fraction.isEmpty)
  let exponent ← readExponent rest
  let digits := digitsValue (whole ++ fraction)
  let scale := exponent - (fraction.length : Int)
  let length : Int := (whole ++ fraction).length
  if digits = 0 || scale + length < -farExponent then return .finite negative 0 0
  if farExponent < scale + (Nat.log2 digits : Int) / 4 then none
  let (mantissa, e) ←
    if 0 ≤ scale then nearest (digits * Nat.pow 10 scale.toNat) 1
    else nearest digits (Nat.pow 10 (-scale).toNat)
  return .finite negative mantissa e

/-- The first integer that does not fit 64 bits with a sign. -/
def intLimit : Int := 0x8000000000000000

/-- The integer part of a number that fits 64 bits. What lies below the least such integer, and the
first number above the greatest, become the least. -/
def Number.toInt? : Number → Option Int
  | .notANumber => none
  | .infinite negative => if negative then some (-intLimit) else none
  | .finite negative mantissa e =>
    let size := if 0 ≤ e then mantissa <<< e.toNat else mantissa >>> (-e).toNat
    let magnitude : Int := size
    if negative then some (max (-magnitude) (-intLimit))
    else if magnitude < intLimit then some magnitude
    else if magnitude = intLimit then some (-intLimit)
    else none

end ReturnAudit.Double
