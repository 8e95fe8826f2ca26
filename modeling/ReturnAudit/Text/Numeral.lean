import ReturnAudit.Text.Quoted

/-!
# Numerals

Writing numbers in decimal and hexadecimal, and reading integers of a given width. A numeral without
a fixed base may carry a base mark (`0x`, `0o`, `0b`, or a leading zero for octal) and underscores
between its digits.
-/

namespace ReturnAudit.Numeral

/-- A number in decimal. -/
def ofNat (n : Nat) : Bytes :=
  (Nat.toDigits 10 n).map Bytes.ofChar

/-- An integer in decimal. -/
def ofInt : Int → Bytes
  | .ofNat n => ofNat n
  | .negSucc n => 45 :: ofNat (n + 1)

/-- A number in lowercase hexadecimal without leading zeros. -/
def hex (n : Nat) : Bytes :=
  (Nat.toDigits 16 n).map Bytes.ofChar

/-- A number in lowercase hexadecimal, filled with zeros to a width. -/
def hexPadded (width n : Nat) : Bytes :=
  List.replicate (width - (hex n).length) 48 ++ hex n

/-- Why a numeral could not be read. -/
inductive Fault where
  /-- The text is no numeral. -/
  | malformed
  /-- The value does not fit. -/
  | outOfRange
  deriving DecidableEq, Repr

/-- The message of a failed reading; `reader` names the kind of reading in the message. -/
def Fault.message (reader : String) (s : Bytes) (fault : Fault) : Bytes :=
  reader ++ ": parsing " ++ Quoted.text s ++
    match fault with
    | .malformed => ": invalid syntax"
    | .outOfRange => ": value out of range"

/-- The value of a byte as a digit of a base up to 36. -/
def digit? (b : UInt8) : Option Nat :=
  if 48 ≤ b && b ≤ 57 then some (b.toNat - 48)
  else if 97 ≤ b && b ≤ 122 then some (b.toNat - 87)
  else if 65 ≤ b && b ≤ 90 then some (b.toNat - 55)
  else none

/-- Reads digits from the left; the first digit that is none, or that leads beyond `limit`, decides
the fault. -/
private def readDigits (base limit : Nat) (underscores : Bool) : Nat → Bytes → Except Fault Nat
  | n, [] => .ok n
  | n, b :: rest =>
    if b = 95 && underscores then readDigits base limit underscores n rest
    else
      match digit? b with
      | none => .error .malformed
      | some d =>
        if base ≤ d then .error .malformed
        else if limit < base * n + d then .error .outOfRange
        else readDigits base limit underscores (base * n + d) rest

/-- A letter as a small one. -/
private def lower (b : UInt8) : UInt8 :=
  if 65 ≤ b && b ≤ 90 then b + 32 else b

/-- What stands before a place in a numeral. -/
private inductive Before where
  | start | digit | underscore | other
  deriving DecidableEq

/-- Whether underscores stand only between digits, after what stands before. -/
private def underscoresFit (hexadecimal : Bool) : Before → Bytes → Bool
  | before, [] => before != .underscore
  | before, b :: rest =>
    if (48 ≤ b && b ≤ 57) || (hexadecimal && 97 ≤ lower b && lower b ≤ 102) then
      underscoresFit hexadecimal .digit rest
    else if b = 95 then before = .digit && underscoresFit hexadecimal .underscore rest
    else before != .underscore && underscoresFit hexadecimal .other rest

/-- Whether underscores stand only between digits, or between a base mark and a digit. -/
def underscoresOk (s : Bytes) : Bool :=
  let s := match s with
    | b :: rest => if b = 43 || b = 45 then rest else s
    | [] => s
  match s with
  | 48 :: mark :: rest =>
    if lower mark = 98 || lower mark = 111 then underscoresFit false .digit rest
    else if lower mark = 120 then underscoresFit true .digit rest
    else underscoresFit false .start s
  | _ => underscoresFit false .start s

/-- Reads a natural number of at most `bits` bits in a fixed base. -/
def readNat (base bits : Nat) (s : Bytes) : Except Fault Nat :=
  if s.isEmpty then .error .malformed else readDigits base (1 <<< bits - 1) false 0 s

/-- Reads a natural number of at most `bits` bits whose base is given by its mark. -/
def readMarkedNat (bits : Nat) (s : Bytes) : Except Fault Nat :=
  let (base, digits) := match s with
    | 48 :: mark :: d :: rest =>
      if lower mark = 98 then (2, d :: rest)
      else if lower mark = 111 then (8, d :: rest)
      else if lower mark = 120 then (16, d :: rest)
      else (8, mark :: d :: rest)
    | 48 :: rest => (8, rest)
    | _ => (10, s)
  if s.isEmpty then .error .malformed
  else do
    let n ← readDigits base (1 <<< bits - 1) true 0 digits
    if s.contains 95 && !underscoresOk s then .error .malformed else pure n

/-- Gives a magnitude its sign and holds it to `bits` bits in two's complement. -/
private def signed (bits : Nat) (negative : Bool) (magnitude : Except Fault Nat) :
    Except Fault Int := do
  let n ← magnitude
  if negative then
    if 1 <<< (bits - 1) < n then .error .outOfRange else pure (-(n : Int))
  else if 1 <<< (bits - 1) ≤ n then .error .outOfRange
  else pure n

/-- Whether a minus sign comes first, and what follows the sign. -/
private def cutSign : Bytes → Bool × Bytes
  | 43 :: rest => (false, rest)
  | 45 :: rest => (true, rest)
  | s => (false, s)

/-- Reads an integer of `bits` bits in a fixed base, with an optional sign. -/
def readInt (base bits : Nat) (s : Bytes) : Except Fault Int :=
  let (negative, digits) := cutSign s
  signed bits negative (readNat base bits digits)

/-- Reads an integer of `bits` bits whose base is given by its mark, with an optional sign. -/
def readMarkedInt (bits : Nat) (s : Bytes) : Except Fault Int :=
  let (negative, digits) := cutSign s
  signed bits negative (readMarkedNat bits digits)

end ReturnAudit.Numeral
