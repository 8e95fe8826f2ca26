import ReturnAudit.Text.Utf8

/-!
# White space

The characters with the white space property, and the removal of white space from the two ends of
a text.
-/

namespace ReturnAudit.Blank

/-- Whether a code point is white space. -/
def isBlank (point : Nat) : Bool :=
  (9 ≤ point && point ≤ 13) || point = 0x20 || point = 0x85 || point = 0xA0 || point = 0x1680
    || (0x2000 ≤ point && point ≤ 0x200A) || point = 0x2028 || point = 0x2029 || point = 0x202F
    || point = 0x205F || point = 0x3000

/-- The text without the white space at its two ends. -/
def trim (s : Bytes) : Bytes :=
  let blank := fun (chunk : Utf8.Decoded × Bytes) => isBlank chunk.1.point
  let front := (Utf8.chunks s).dropWhile blank
  ((front.reverse.dropWhile blank).reverse).flatMap Prod.snd

end ReturnAudit.Blank
