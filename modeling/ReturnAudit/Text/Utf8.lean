import ReturnAudit.Text.Bytes

/-!
# UTF-8

Decoding of byte texts into code points. A byte that does not start a well-formed sequence stands
for the replacement character and takes one byte, so that every text has a decoding.
-/

namespace ReturnAudit.Utf8

/-- The code point that stands for a malformed byte. -/
def replacement : Nat := 0xFFFD

/-- A decoded code point, the number of bytes it took and whether these were well formed. -/
structure Decoded where
  /-- The code point, or the replacement character. -/
  point : Nat
  /-- How many bytes were used. -/
  width : Nat
  /-- Whether the bytes were a well-formed sequence. -/
  valid : Bool
  deriving DecidableEq, Repr

/-- What stands for a byte that starts no sequence. -/
private def malformed : Decoded := ⟨replacement, 1, false⟩

/-- Whether a byte continues a sequence. -/
private def isContinuation (b : UInt8) : Bool :=
  0x80 ≤ b && b < 0xC0

/-- The bits that a continuation byte adds. -/
private def payload (b : UInt8) : Nat :=
  b.toNat % 64

/-- The first code point of a text that begins with `b`. Overlong forms, surrogates and values
beyond `0x10FFFF` are malformed. -/
def decodeHead (b : UInt8) (rest : Bytes) : Decoded :=
  if b < 0x80 then ⟨b.toNat, 1, true⟩
  else if b < 0xC2 then malformed
  else if b < 0xE0 then
    match rest with
    | c :: _ => if isContinuation c then ⟨b.toNat % 32 * 64 + payload c, 2, true⟩ else malformed
    | _ => malformed
  else if b < 0xF0 then
    match rest with
    | c :: d :: _ =>
      let point := (b.toNat % 16 * 64 + payload c) * 64 + payload d
      if isContinuation c && isContinuation d && 0x800 ≤ point
          && !(0xD800 ≤ point && point ≤ 0xDFFF) then ⟨point, 3, true⟩
      else malformed
    | _ => malformed
  else if b < 0xF5 then
    match rest with
    | c :: d :: e :: _ =>
      let point := ((b.toNat % 8 * 64 + payload c) * 64 + payload d) * 64 + payload e
      if isContinuation c && isContinuation d && isContinuation e
          && 0x10000 ≤ point && point ≤ 0x10FFFF then ⟨point, 4, true⟩
      else malformed
    | _ => malformed
  else malformed

/-- At most `n` code points with the bytes they came from. -/
private def chunksUpTo : Nat → Bytes → List (Decoded × Bytes)
  | 0, _ => []
  | _, [] => []
  | n + 1, b :: rest =>
    let d := decodeHead b rest
    (d, b :: rest.take (d.width - 1)) :: chunksUpTo n (rest.drop (d.width - 1))

/-- The code points of a text in order, each with the bytes it came from. -/
def chunks (s : Bytes) : List (Decoded × Bytes) :=
  chunksUpTo s.length s

/-- The code points of a text in order. -/
def decode (s : Bytes) : List Decoded :=
  (chunks s).map Prod.fst

/-- The code points of a text, malformed bytes as replacement characters. -/
def points (s : Bytes) : List Nat :=
  (decode s).map Decoded.point

/-- Whether a number is a code point that UTF-8 can express. -/
def isScalar (point : Nat) : Bool :=
  point < 0xD800 || (0xDFFF < point && point ≤ 0x10FFFF)

/-- The bytes of a code point; what is no scalar value becomes the replacement character. -/
def encodePoint (point : Nat) : Bytes :=
  if isScalar point then String.utf8EncodeChar (Char.ofNat point)
  else String.utf8EncodeChar (Char.ofNat replacement)

/-- The bytes of a list of code points. -/
def encode (points : List Nat) : Bytes :=
  points.flatMap encodePoint

end ReturnAudit.Utf8
