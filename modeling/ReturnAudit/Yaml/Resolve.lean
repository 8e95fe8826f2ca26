import ReturnAudit.Text.Double
import ReturnAudit.Yaml.Node
import ReturnAudit.Yaml.Timestamp

/-!
# Values of scalars

A plain scalar is null, a truth value, an integer, a floating-point number or a timestamp when it is
written like one, and a text otherwise. A tag of a core type demands that type; other tags leave the
text as it is.
-/

namespace ReturnAudit.Yaml

/-- The value of a scalar. -/
inductive Value where
  /-- Nothing. -/
  | null
  /-- A truth value. -/
  | bool (b : Bool)
  /-- An integer. -/
  | int (n : Int)
  /-- A floating-point number. -/
  | float (x : Double.Number)
  /-- A point in time. -/
  | timestamp
  /-- A text. -/
  | text (s : Bytes)
  deriving DecidableEq, Repr

/-- The scalars that stand for a value as a whole. -/
def namedValues : List (Value × Bytes × List String) :=
  [(.bool true, boolTag, ["true", "True", "TRUE"]),
    (.bool false, boolTag, ["false", "False", "FALSE"]),
    (.null, nullTag, ["", "~", "null", "Null", "NULL"]),
    (.float .notANumber, floatTag, [".nan", ".NaN", ".NAN"]),
    (.float (.infinite false), floatTag, [".inf", ".Inf", ".INF", "+.inf", "+.Inf", "+.INF"]),
    (.float (.infinite true), floatTag, ["-.inf", "-.Inf", "-.INF"])]

/-- The value that a scalar stands for as a whole. -/
def namedValue? (s : Bytes) : Option (Bytes × Value) :=
  (namedValues.find? fun (_, _, names) => names.any fun name => Bytes.ofString name = s).map
    fun (value, tag, _) => (tag, value)

/-- An integer in 64 bits, signed or not, in decimal or with a mark of its base. -/
def readInteger? (s : Bytes) : Option Int :=
  match Numeral.readMarkedInt 64 s with
  | .ok n => some n
  | .error _ =>
    match Numeral.readMarkedNat 64 s with
    | .ok n => some n
    | .error _ => none

/-- An integer after a mark of its base, where a sign may also stand behind the mark. -/
def readLooseInteger? (s : Bytes) : Option Int :=
  let inBase (base : Nat) (digits : Bytes) : Option Int :=
    match Numeral.readInt base 64 digits with
    | .ok n => some n
    | .error _ => none
  match s with
  | 48 :: 98 :: digits => inBase 2 digits
  | 48 :: 111 :: digits => inBase 8 digits
  | 45 :: 48 :: 98 :: digits => inBase 2 (45 :: digits)
  | 45 :: 48 :: 111 :: digits => inBase 8 (45 :: digits)
  | _ => none

/-- A number with a leading point; single underscores may divide its digits. -/
def readPointed? (s : Bytes) : Option Double.Number :=
  if Numeral.underscoresOk s then Double.read? (s.filter (· != 95)) else none

/-- Whether a byte is a decimal digit. -/
private def isDigitByte (b : UInt8) : Bool :=
  48 ≤ b && b ≤ 57

/-- The value of a plain scalar that starts with a digit or a sign. -/
def readNumber? (mayBeTime : Bool) (s : Bytes) : Option (Bytes × Value) :=
  if mayBeTime && Timestamp.holds s then some (timestampTag, .timestamp)
  else
    let plain := s.filter (· != 95)
    match readInteger? plain with
    | some n => some (intTag, .int n)
    | none =>
      match Double.read? plain with
      | some x => some (floatTag, .float x)
      | none => (readLooseInteger? plain).map fun n => (intTag, .int n)

/-- The type and value of a scalar by the way it is written. -/
def valueOf (mayBeTime : Bool) (s : Bytes) : Bytes × Value :=
  let text := (strTag, Value.text s)
  match s with
  | [] => (nullTag, .null)
  | b :: _ =>
    if isDigitByte b || b = 43 || b = 45 then
      ((namedValue? s).or (readNumber? mayBeTime s)).getD text
    else if b = 46 then
      ((namedValue? s).or ((readPointed? s).map fun x => (floatTag, .float x))).getD text
    else (namedValue? s).getD text

/-- The type of an untagged plain scalar. -/
def plainTag (s : Bytes) : Bytes :=
  (valueOf true s).1

/-- The tags that demand a type. -/
def demandingTags : List Bytes := [boolTag, intTag, floatTag, nullTag, timestampTag]

/-- The value of a text in base 64, without line ends. -/
def decodeBase64? (s : Bytes) : Option Bytes :=
  let s := s.filter fun b => b != 10 && b != 13
  let body := s.takeWhile (· != 61)
  let padding := s.drop body.length
  if s.length % 4 != 0 || 2 < padding.length || padding.any (· != 61) then none
  else do
    let digits ← body.mapM fun b =>
      if 65 ≤ b && b ≤ 90 then some (b.toNat - 65)
      else if 97 ≤ b && b ≤ 122 then some (b.toNat - 71)
      else if 48 ≤ b && b ≤ 57 then some (b.toNat + 4)
      else if b = 43 then some 62
      else if b = 47 then some 63
      else none
    return groups (digits.length + 1) digits
where
  /-- Four digits at a time become three bytes; two or three digits at the end become fewer. -/
  groups : Nat → List Nat → Bytes
    | 0, _ => []
    | n + 1, a :: b :: c :: d :: rest =>
      let word := ((a * 64 + b) * 64 + c) * 64 + d
      [(word / 65536).toUInt8, (word / 256 % 256).toUInt8, (word % 256).toUInt8] ++ groups n rest
    | _, [a, b, c] =>
      let word := (a * 64 + b) * 64 + c
      [(word / 1024).toUInt8, (word / 4 % 256).toUInt8]
    | _, [a, b] => [((a * 64 + b) / 16).toUInt8]
    | _, _ => []

/-- The value of a scalar under its tag. -/
def Scalar.value (s : Scalar) : Except Fault Value :=
  if s.tag = strTag then .ok (.text s.text)
  else if s.tag = binaryTag then
    match decodeBase64? s.text with
    | some bytes => .ok (.text bytes)
    | none => .error .taggedValue
  else if demandingTags.contains s.tag then
    let (tag, value) := valueOf (s.tag = timestampTag) s.text
    match value with
    | .int n =>
      if s.tag = intTag then .ok value
      else if s.tag = floatTag && n < Double.intLimit then .ok (.float (Double.ofInt n))
      else .error .taggedValue
    | value => if tag = s.tag then .ok value else .error .taggedValue
  else .ok (.text s.text)

end ReturnAudit.Yaml
