import ReturnAudit.Text.Category
import ReturnAudit.Text.Utf8

/-!
# Quoted texts

Error messages show the texts they are about between quotes, with everything that does not print
written as an escape. The same escapes can be read back, also between single quotes (one character
at most) and between backquotes (a raw text).
-/

namespace ReturnAudit.Quoted

/-- Whether a character is shown as it is: letters, marks, numbers, punctuation, symbols and the
blank. -/
def isPrintable (point : Nat) : Bool :=
  if point < 0x80 then 0x20 ≤ point && point < 0x7F
  else ["L", "M", "N", "P", "S"].any fun group =>
    ((Category.find? group).getD []).has point

/-- A number as at least `width` hexadecimal digits. -/
private def hexDigits (width n : Nat) : Bytes :=
  let digits := (Nat.toDigits 16 n).map Bytes.ofChar
  List.replicate (width - digits.length) 48 ++ digits

/-- A character between quotes of the kind `quote`. -/
def escape (quote : UInt8) (d : Utf8.Decoded) (raw : Bytes) : Bytes :=
  if !d.valid then "\\x" ++ raw.flatMap fun b => hexDigits 2 b.toNat
  else if d.point = quote.toNat || d.point = 0x5C then 0x5C :: raw
  else if isPrintable d.point then raw
  else if d.point = 7 then "\\a"
  else if d.point = 8 then "\\b"
  else if d.point = 12 then "\\f"
  else if d.point = 10 then "\\n"
  else if d.point = 13 then "\\r"
  else if d.point = 9 then "\\t"
  else if d.point = 11 then "\\v"
  else if d.point < 0x20 || d.point = 0x7F then "\\x" ++ hexDigits 2 d.point
  else if d.point < 0x10000 then "\\u" ++ hexDigits 4 d.point
  else "\\U" ++ hexDigits 8 d.point

/-- A text between double quotes. -/
def text (s : Bytes) : Bytes :=
  34 :: (Utf8.chunks s).flatMap (fun (d, raw) => escape 34 d raw) ++ [34]

/-- A character between single quotes. -/
def char (point : Nat) : Bytes :=
  39 :: escape 39 ⟨point, 1, true⟩ (Utf8.encodePoint point) ++ [39]

/-- The value of a hexadecimal digit. -/
private def hexValue? (b : UInt8) : Option Nat :=
  if 48 ≤ b && b ≤ 57 then some (b.toNat - 48)
  else if 97 ≤ b && b ≤ 102 then some (b.toNat - 87)
  else if 65 ≤ b && b ≤ 70 then some (b.toNat - 55)
  else none

/-- The number that digits form in a base up to 16. -/
private def digitsValue? (base : Nat) (s : Bytes) : Option Nat :=
  s.foldl (fun acc b =>
    match acc, hexValue? b with
    | some n, some d => if d < base then some (base * n + d) else none
    | _, _ => none) (some 0)

/-- The number that the first `width` bytes form, and what follows them. -/
private def readDigits (base width : Nat) (s : Bytes) : Option (Nat × Bytes) := do
  let (digits, rest) ← Bytes.splitExactly width s
  let n ← digitsValue? base digits
  pure (n, rest)

/-- What an escape stands for; `s` is what follows the backslash. -/
private def readEscape (quote : UInt8) : Bytes → Option (Bytes × Bytes)
  | [] => none
  | b :: rest =>
    match Char.ofNat b.toNat with
    | 'a' => some ([7], rest)
    | 'b' => some ([8], rest)
    | 'f' => some ([12], rest)
    | 'n' => some ([10], rest)
    | 'r' => some ([13], rest)
    | 't' => some ([9], rest)
    | 'v' => some ([11], rest)
    | '\\' => some ([0x5C], rest)
    | 'x' => (readDigits 16 2 rest).map fun (n, rest) => ([n.toUInt8], rest)
    | 'u' => (readDigits 16 4 rest).bind fun (n, rest) =>
      if Utf8.isScalar n then some (Utf8.encodePoint n, rest) else none
    | 'U' => (readDigits 16 8 rest).bind fun (n, rest) =>
      if Utf8.isScalar n then some (Utf8.encodePoint n, rest) else none
    | '\'' | '"' => if b = quote then some ([b], rest) else none
    | _ =>
      if 48 ≤ b && b ≤ 55 then
        (readDigits 8 3 (b :: rest)).bind fun (n, rest) =>
          if n < 256 then some ([n.toUInt8], rest) else none
      else none

/-- The next character of a quoted text and what follows it. -/
private def readChar (quote : UInt8) : Bytes → Option (Bytes × Bytes)
  | [] => none
  | b :: rest =>
    if b = quote || b = 10 then none
    else if b = 0x5C then readEscape quote rest
    else if b < 0x80 then some ([b], rest)
    else
      let d := Utf8.decodeHead b rest
      some (Utf8.encodePoint d.point, rest.drop (d.width - 1))

/-- The characters up to a closing quote that ends the text. -/
private def readAll (quote : UInt8) : Nat → Bytes → Option Bytes
  | 0, _ => none
  | fuel + 1, s =>
    if s = [quote] then some []
    else do
      let (c, rest) ← readChar quote s
      let cs ← readAll quote fuel rest
      pure (c ++ cs)

/-- The text that a quoted text stands for. Double quotes hold any number of characters on one line,
backquotes a text without escapes, which loses its carriage returns. Single quotes hold one
character; two of them with nothing in between stand for the empty text. -/
def read? (s : Bytes) : Option Bytes :=
  match s with
  | [] => none
  | quote :: rest =>
    if quote = 96 then
      match Bytes.cut 96 rest with
      | some (raw, []) => some (raw.filter (· ≠ 13))
      | _ => none
    else if quote = 34 then readAll 34 (rest.length + 1) rest
    else if quote = 39 then
      -- The closing quote alone is no character, so the empty text has to be told apart first.
      if rest = [39] then some []
      else
        match readChar 39 rest with
        | some (c, [39]) => some c
        | _ => none
    else none

end ReturnAudit.Quoted
