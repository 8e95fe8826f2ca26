import ReturnAudit.Text.Bytes

/-!
# Cyclic redundancy checks

The check value of archive entries: division of the text, taken as a polynomial over two elements,
by the reversed polynomial `0xEDB88320`.
-/

namespace ReturnAudit.Archive.Crc32

/-- The reversed polynomial. -/
def polynomial : UInt32 := 0xEDB88320

/-- The remainder after one more bit. -/
def shift (crc : UInt32) : UInt32 :=
  if crc &&& 1 = 1 then (crc >>> 1) ^^^ polynomial else crc >>> 1

/-- The remainder after one more byte. -/
def update (crc : UInt32) (b : UInt8) : UInt32 :=
  shift (shift (shift (shift (shift (shift (shift (shift (crc ^^^ b.toUInt32))))))))

/-- The check value of a text. -/
def checksum (s : Bytes) : UInt32 :=
  s.foldl update 0xFFFFFFFF ^^^ 0xFFFFFFFF

end ReturnAudit.Archive.Crc32
