import ReturnAudit.Text.Utf8

/-!
# The characters of YAML text

A text is in UTF-8, or in one of the two forms of UTF-16 when it starts with their byte order mark;
a byte order mark at the start is no part of the text. The bytes are read in pieces, and a piece is
read only when one of its characters is asked for. So a malformed or forbidden character makes a
text unreadable only from the piece on in which it stands.
-/

namespace ReturnAudit.Yaml

/-- Whether a character may occur in a text at all. -/
def isAllowed (p : Nat) : Bool :=
  p == 9 || p == 10 || p == 13 || (32 ≤ p && p ≤ 126) || p == 0x85
    || (0xA0 ≤ p && p ≤ 0xD7FF) || (0xE000 ≤ p && p ≤ 0xFFFD) || (0x10000 ≤ p && p ≤ 0x10FFFF)

/-- How a text is encoded. -/
inductive Encoding where
  /-- In UTF-8. -/
  | utf8
  /-- In UTF-16, the high byte of a unit first or last. -/
  | utf16 (highFirst : Bool)
  deriving DecidableEq, Repr

/-- What the bytes at a place hold. -/
inductive Reading where
  /-- A character and how many bytes it takes. -/
  | char (point width : Nat)
  /-- The start of a character of which more bytes are needed. -/
  | incomplete
  /-- No character that may occur. -/
  | faulty
  deriving DecidableEq, Repr

namespace Encoding

/-- How many bytes the character takes that a byte starts in UTF-8; zero if it starts none. -/
private def leadingWidth (b : UInt8) : Nat :=
  if b < 0x80 then 1 else if b < 0xC0 then 0 else if b < 0xE0 then 2 else if b < 0xF0 then 3
  else if b < 0xF8 then 4 else 0

/-- A character that has been read, if a text may hold it. -/
private def allowed (point width : Nat) : Reading :=
  if isAllowed point then .char point width else .faulty

/-- Reads a character in UTF-8, which begins with `b`. -/
private def readUtf8 (room : Nat) (b : UInt8) (rest : Bytes) : Reading :=
  let width := leadingWidth b
  if width = 0 then .faulty
  else if room < width || (rest.take (width - 1)).length < width - 1 then .incomplete
  else
    let d := Utf8.decodeHead b rest
    if d.valid then allowed d.point width else .faulty

/-- The number that two bytes form. -/
private def unit (highFirst : Bool) (a b : UInt8) : Nat :=
  if highFirst then 256 * a.toNat + b.toNat else 256 * b.toNat + a.toNat

/-- Whether a unit is the first half of a character. -/
private def isHighSurrogate (u : Nat) : Bool :=
  0xD800 ≤ u && u < 0xDC00

/-- Whether a unit is the second half of a character. -/
private def isLowSurrogate (u : Nat) : Bool :=
  0xDC00 ≤ u && u < 0xE000

/-- Reads a character in UTF-16. -/
private def readUtf16 (highFirst : Bool) (room : Nat) : Bytes → Reading
  | a :: b :: rest =>
    let first := unit highFirst a b
    if room < 2 then .incomplete
    else if isLowSurrogate first then .faulty
    else if isHighSurrogate first then
      match rest with
      | c :: d :: _ =>
        let second := unit highFirst c d
        if room < 4 then .incomplete
        else if isLowSurrogate second then
          allowed (0x10000 + first % 0x400 * 0x400 + second % 0x400) 4
        else .faulty
      | _ => .incomplete
    else allowed first 2
  | _ => .incomplete

/-- Reads the character at a place, of which `room` bytes have been read. -/
def read (room : Nat) (b : UInt8) (rest : Bytes) : Encoding → Reading
  | utf8 => readUtf8 room b rest
  | utf16 highFirst => readUtf16 highFirst room (b :: rest)

/-- The encoding of a text and the length of its byte order mark. -/
def ofText : Bytes → Encoding × Nat
  | 0xFF :: 0xFE :: _ => (utf16 false, 2)
  | 0xFE :: 0xFF :: _ => (utf16 true, 2)
  | 0xEF :: 0xBB :: 0xBF :: _ => (utf8, 3)
  | _ => (utf8, 0)

end Encoding

/-- The characters of a text and the pieces in which they are read. -/
structure Source where
  /-- The characters before the first one that cannot be read. -/
  points : List Nat
  /-- For every piece that can be read, how many characters there are up to its end. -/
  pieceEnds : List Nat
  /-- Whether a character that cannot be read follows. -/
  faulty : Bool
  deriving DecidableEq, Repr

namespace Source

/-- The number of bytes of a piece. -/
def pieceSize : Nat := 512

/-- Reads the characters that are complete in a piece. Returns the characters read so far, last
first, with what is left of the text and whether it can be read on. -/
private def readPiece (e : Encoding) : Nat → Nat → List Nat → Bytes → List Nat × Bytes × Bool
  | 0, _, points, s => (points, s, true)
  | _, _, points, [] => (points, [], true)
  | n + 1, room, points, b :: rest =>
    match if room = 0 then .incomplete else e.read room b rest with
    | .char point width => readPiece e n (room - width) (point :: points) (rest.drop (width - 1))
    | .incomplete => (points, b :: rest, true)
    | .faulty => (points, b :: rest, false)

/-- Reads pieces until the text ends or cannot be read on. -/
private def readPieces (e : Encoding) (room : Nat) : Nat → List Nat → List Nat → Bytes → Source
  | 0, points, ends, _ => ⟨points.reverse, ends.reverse, false⟩
  | _, points, ends, [] => ⟨points.reverse, ends.reverse, false⟩
  | n + 1, points, ends, s@(_ :: _) =>
    let (points', rest, readable) := readPiece e pieceSize room points s
    let count := points'.length
    if !readable || count = points.length then ⟨points'.reverse, ends.reverse, true⟩
    else readPieces e pieceSize n points' (count :: ends) rest

/-- The characters of a text. -/
def ofBytes (s : Bytes) : Source :=
  let (encoding, markLength) := Encoding.ofText s
  readPieces encoding (pieceSize - markLength) (s.length + 1) [] [] (s.drop markLength)

end Source

end ReturnAudit.Yaml
