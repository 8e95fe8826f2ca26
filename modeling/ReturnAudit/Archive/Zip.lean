import ReturnAudit.Archive.Crc32
import ReturnAudit.Archive.Inflate

/-!
# Zip archives

An archive ends with a directory of its entries and a record that tells where the directory starts.
Text before the first entry is allowed. Entries are stored or compressed, and what an entry holds is
checked against the size and the check value in the directory.

Numbers that do not fit the directory or the record at the end are marked there and stated
elsewhere. Readers go apart about archives that mark a number and state it nowhere or twice, so the
rules for these are a parameter. What is proved about class paths holds for any reader.
-/

namespace ReturnAudit.Archive

/-- The number that some bytes form, the first one lowest. -/
def littleEndian (s : Bytes) : Nat :=
  s.foldr (fun b n => b.toNat + 256 * n) 0

/-- The number in `width` bytes from a position on. -/
def numberAt (s : Bytes) (position width : Nat) : Nat :=
  littleEndian ((s.drop position).take width)

/-- The bytes of a number, the lowest first. -/
def toLittleEndian : Nat → Nat → Bytes
  | 0, _ => []
  | width + 1, n => n.toUInt8 :: toLittleEndian width (n / 256)

/-- Why an archive or an entry cannot be read. -/
inductive ZipFault where
  /-- The structure is broken. -/
  | format
  /-- A structure starts where the archive has ended. -/
  | ended
  /-- The archive ends inside a structure or an entry. -/
  | truncated
  /-- The method of compression is not known. -/
  | algorithm
  /-- The check values differ. -/
  | checksum
  /-- A position lies before the start. -/
  | position
  /-- The compressed text is broken. -/
  | inflate (fault : InflateFault)
  deriving DecidableEq, Repr

/-- The wording of a fault. -/
def ZipFault.message : ZipFault → Bytes
  | format => "zip: not a valid zip file"
  | ended => "EOF"
  | truncated => "unexpected EOF"
  | algorithm => "zip: unsupported compression algorithm"
  | checksum => "zip: checksum error"
  | position => "bytes.Reader.ReadAt: negative offset"
  | inflate fault => fault.message

/-- How numbers are read that may be too large for 32 bits. -/
inductive WideRules where
  /-- The first extra field for large archives counts. A marked size in the archive or a marked
  offset is a fault unless this field states it. The size of a directory is marked by `0xFFFF`. -/
  | strict
  /-- Every extra field for large archives counts. A marked number that no field states is taken as
  it is. The size of a directory is marked by the largest number of 32 bits. -/
  | lenient
  deriving DecidableEq, Repr

/-- The largest number of 32 bits, which marks a number as stated elsewhere. -/
def wideMarker : Nat := 0xFFFFFFFF

/-- What marks the size of a directory as stated elsewhere. -/
def WideRules.sizeMarker : WideRules → Nat
  | strict => 0xFFFF
  | lenient => wideMarker

/-- What the directory tells about an entry. -/
structure ZipEntry where
  /-- The name. -/
  name : Bytes
  /-- Which system made the entry; it tells how to read the attributes. -/
  creator : Nat
  /-- The attributes of the file. -/
  attributes : Nat
  /-- The flags. -/
  flags : Nat
  /-- The method of compression. -/
  method : Nat
  /-- The check value. -/
  crc : Nat
  /-- The size in the archive. -/
  packedSize : Nat
  /-- The size of the text. -/
  size : Nat
  /-- Where the entry starts. -/
  offset : Int
  deriving DecidableEq, Repr

/-- Whether the entry is a directory, by its name or its attributes. -/
def ZipEntry.isDirectory (e : ZipEntry) : Bool :=
  let byAttributes :=
    if e.creator = 3 || e.creator = 19 then e.attributes >>> 28 = 4
    else if e.creator = 0 || e.creator = 11 || e.creator = 14 then e.attributes / 16 % 2 = 1
    else false
  byAttributes || e.name.getLast? = some 47

/-- Why the text of an entry cannot be had. -/
inductive EntryFault where
  /-- The entry cannot be opened. -/
  | opening (fault : ZipFault)
  /-- The entry is opened but its text cannot be read. -/
  | reading (fault : ZipFault)
  deriving DecidableEq, Repr

/-- A reader of archives. -/
structure Reader where
  /-- The entries of an archive in the order of its directory. -/
  entries : Bytes → Except ZipFault (List ZipEntry)
  /-- The text of an entry of an archive. -/
  text : Bytes → ZipEntry → Except EntryFault Bytes

/-- The record at the end of an archive. -/
structure ZipEnd where
  /-- How many entries there are. -/
  records : Nat
  /-- The size of the directory. -/
  size : Nat
  /-- Where the directory starts, if nothing comes before the first entry. -/
  offset : Nat
  deriving DecidableEq, Repr

namespace Zip

/-- The mark of the record in front of an entry's text. -/
def entryMark : Nat := 0x04034b50

/-- The mark of an entry of the directory. -/
def directoryMark : Nat := 0x02014b50

/-- The mark of the record at the end. -/
def endMark : Nat := 0x06054b50

/-- The mark of the end record for large archives. -/
def wideEndMark : Nat := 0x06064b50

/-- The mark of the record that tells where the end record for large archives is. -/
def wideLocatorMark : Nat := 0x07064b50

/-- The mark of the record behind an entry's text. Archives may leave it out. -/
def descriptorMark : Nat := 0x08074b50

/-- The position of the last end mark that is followed by a whole record. -/
private def lastMark : Nat → Bytes → Option Nat → Option Nat
  | position, 80 :: 75 :: 5 :: 6 :: rest, found =>
    let here := if (rest.drop 17).isEmpty then found else some position
    lastMark (position + 1) (75 :: 5 :: 6 :: rest) here
  | position, _ :: rest, found => lastMark (position + 1) rest found
  | _, [], found => found

/-- The position of the end record of a block; a comment that is cut off makes the block useless. -/
private def findEnd (block : Bytes) : Option Nat :=
  (lastMark 0 block none).filter fun position =>
    22 + numberAt (block.drop position) 20 2 ≤ block.length - position

/-- The position of the end record in the first of the given reaches from the end that has one. -/
private def searchEnd (s : Bytes) : List Nat → Option Nat
  | [] => none
  | reach :: wider =>
    let start := s.length - reach
    match findEnd (s.drop start) with
    | some position => some (start + position)
    | none => if s.length ≤ reach then none else searchEnd s wider

/-- The position of the record at the end: it is looked for in the last kilobyte, then in the last
65 kilobytes. -/
def endPosition? (s : Bytes) : Option Nat :=
  searchEnd s [1024, 65 * 1024]

/-- Where the end record for large archives starts, when there is one. -/
private def wideEnd? (s : Bytes) (position : Nat) : Option Nat :=
  if position < 20 then none
  else
    let here := s.drop (position - 20)
    let found := numberAt here 8 8
    if numberAt here 0 4 = wideLocatorMark && numberAt here 4 4 = 0 && numberAt here 16 4 = 1
        && found < 1 <<< 63 then some found
    else none

/-- The end record for large archives at a position. -/
private def readWideEnd (s : Bytes) (position : Nat) : Except ZipFault ZipEnd := do
  let here := s.drop position
  if here.length < 56 then throw .ended
  if numberAt here 0 4 != wideEndMark then throw .format
  return ⟨numberAt here 32 8, numberAt here 40 8, numberAt here 48 8⟩

/-- The end record and its position. Where it marks one of its numbers, the end record for large
archives takes its place, if there is one. -/
def readEnd (rules : WideRules) (s : Bytes) : Except ZipFault (ZipEnd × Nat) := do
  match endPosition? s with
  | none => throw .format
  | some position =>
    let here := s.drop position
    let plain : ZipEnd := ⟨numberAt here 10 2, numberAt here 12 4, numberAt here 16 4⟩
    if plain.records = 0xFFFF || plain.size = rules.sizeMarker || plain.offset = wideMarker then
      match wideEnd? s position with
      | some wide => return (← readWideEnd s wide, wide)
      | none => return (plain, position)
    return (plain, position)

/-- The number that the lowest 64 bits hold, the highest of them being the sign. -/
private def signed64 (n : Int) : Int :=
  (BitVec.ofInt 64 n).toInt

/-- The number at the start of an extra field, and the rest of the field. -/
private def takeWide (field : Bytes) : Except ZipFault (Nat × Bytes) :=
  if field.length < 8 then .error .format else .ok (numberAt field 0 8, field.drop 8)

/-- The tag of the extra fields for large archives. -/
private def wideTag : Nat := 1

/-- The extra fields for large archives, up to a field that claims more bytes than are left. -/
private def wideFields : Nat → Bytes → List Bytes
  | 0, _ => []
  | fuel + 1, extra =>
    let width := numberAt extra 2 2
    let body := extra.drop 4
    if extra.length < 4 || body.length < width then []
    else
      let others := wideFields fuel (body.drop width)
      if numberAt extra 0 2 = wideTag then body.take width :: others else others

/-- Takes the numbers of an entry that are marked from a field for large archives, which holds these
and no others, in this order. The offset is no longer marked once a field has stated it. -/
private def takeNumbers (wideSize widePacked : Bool) (e : ZipEntry) (field : Bytes) :
    Except ZipFault ZipEntry := do
  let (size, field) ← if wideSize then takeWide field else pure (e.size, field)
  let (packedSize, field) ← if widePacked then takeWide field else pure (e.packedSize, field)
  let offset ← if e.offset = wideMarker then (fun (n, _) => signed64 n) <$> takeWide field
    else pure e.offset
  return { e with size, packedSize, offset }

/-- An entry with the numbers that its extra fields state for large archives. -/
private def readExtra (rules : WideRules) (extra : Bytes) (e : ZipEntry) :
    Except ZipFault ZipEntry := do
  let wideSize := e.size = wideMarker
  let widePacked := e.packedSize = wideMarker
  match rules, wideFields (extra.length + 1) extra with
  | .strict, [] => if widePacked || e.offset = wideMarker then throw .format else return e
  | .strict, field :: _ => takeNumbers wideSize widePacked e field
  | .lenient, fields => fields.foldlM (takeNumbers wideSize widePacked) e

/-- Reads an entry of the directory and returns what follows it. -/
def readEntry (rules : WideRules) (s : Bytes) : Except ZipFault (ZipEntry × Bytes) := do
  if s.isEmpty then throw .ended
  if s.length < 46 then throw .truncated
  if numberAt s 0 4 != directoryMark then throw .format
  let nameLength := numberAt s 28 2
  let extraLength := numberAt s 30 2
  let total := nameLength + extraLength + numberAt s 32 2
  let body := s.drop 46
  if 0 < total && body.isEmpty then throw .ended
  if body.length < total then throw .truncated
  let e : ZipEntry :=
    { name := body.take nameLength, creator := numberAt s 4 2 / 256, flags := numberAt s 8 2
      method := numberAt s 10 2, crc := numberAt s 16 4, packedSize := numberAt s 20 4
      size := numberAt s 24 4, attributes := numberAt s 38 4, offset := numberAt s 42 4 }
  let extra := (body.drop nameLength).take extraLength
  let e ← readExtra rules extra e
  return (e, body.drop total)

/-- Reads entries up to the first part that is none, and the fault of that part. -/
private def readEntries (rules : WideRules) :
    Nat → Bytes → Except ZipFault (List ZipEntry × ZipFault)
  | 0, _ => .ok ([], .format)
  | fuel + 1, s =>
    match readEntry rules s with
    | .error .format => .ok ([], .format)
    | .error .truncated => .ok ([], .truncated)
    | .error fault => .error fault
    | .ok (e, rest) => do
      let (others, fault) ← readEntries rules fuel rest
      return (e :: others, fault)

/-- How far the archive is shifted by what comes before it. -/
private def shiftOf (rules : WideRules) (s : Bytes) (last : ZipEnd) (position : Nat) :
    Except ZipFault Int := do
  if 1 <<< 63 ≤ last.size || 1 <<< 63 ≤ last.offset then throw .format
  let shift : Int := position - last.size - last.offset
  let start := shift + last.offset
  if start < 0 || (s.length : Int) ≤ start then throw .format
  if 0 < shift then
    if let .ok _ := readEntry rules (s.drop last.offset) then
      return 0
  return shift

/-- Reads the directory of an archive. -/
def entries (rules : WideRules) (s : Bytes) : Except ZipFault (List ZipEntry) := do
  let (last, position) ← readEnd rules s
  let shift ← shiftOf rules s last position
  let (found, fault) ← readEntries rules (s.length + 1) (s.drop (shift + last.offset).toNat)
  if found.length % 65536 != last.records % 65536 then throw fault
  return found.map fun e => { e with offset := signed64 (e.offset + shift) }

/-- Where the text of an entry starts. -/
def bodyPosition (s : Bytes) (e : ZipEntry) : Except ZipFault Nat := do
  if e.offset < 0 then throw .position
  let here := s.drop e.offset.toNat
  if here.length < 30 then throw .ended
  if numberAt here 0 4 != entryMark then throw .format
  return e.offset.toNat + 30 + numberAt here 26 2 + numberAt here 28 2

/-- What opening an entry gives: its text as far as there is one, the fault that ended it, and the
bytes that follow it in the archive. -/
structure Opened where
  /-- The text. -/
  text : Bytes
  /-- Why it is not complete. -/
  fault : Option InflateFault
  /-- What follows the entry, unless the size of the entry leads before the start. -/
  after : Option Bytes

/-- Opens an entry. -/
def openEntry (s : Bytes) (e : ZipEntry) : Except ZipFault Opened := do
  let position ← bodyPosition s e
  let body := s.drop position
  let packed := body.take e.packedSize
  let behind := signed64 (position + e.packedSize)
  let after := if 0 ≤ behind then some (s.drop behind.toNat) else none
  if e.method = 0 then return ⟨packed, none, after⟩
  if e.method = 8 then
    let (text, fault) := Archive.inflate packed
    return ⟨text, fault, after⟩
  throw .algorithm

/-- Compares the record behind an entry with the directory. -/
private def checkDescriptor (after : Option Bytes) (e : ZipEntry) : Except ZipFault Unit := do
  let some after := after | throw .position
  let record := after.take 16
  let marked := numberAt record 0 4 = descriptorMark && 4 ≤ record.length
  let record := if marked then record.drop 4 else record
  if record.length < 12 then throw .truncated
  if numberAt record 0 4 != e.crc then throw .checksum

/-- Checks the text of an opened entry against the directory. -/
def checkText (e : ZipEntry) (o : Opened) : Except ZipFault Bytes := do
  if e.size < o.text.length then throw .format
  if let some fault := o.fault then throw (.inflate fault)
  if o.text.length != e.size then throw .truncated
  let described := e.flags / 8 % 2 = 1
  if described then checkDescriptor o.after e
  if (described || e.crc != 0) && (Crc32.checksum o.text).toNat != e.crc then throw .checksum
  return o.text

/-- Reads archives under given rules. -/
def reader (rules : WideRules) : Reader where
  entries := entries rules
  text s e := do
    let opened ← (openEntry s e).mapError .opening
    (checkText e opened).mapError .reading

/-- The record of a stored text, and the text. -/
private def localRecord (name text : Bytes) : Bytes :=
  toLittleEndian 4 entryMark ++ toLittleEndian 2 20 ++ toLittleEndian 8 0
    ++ toLittleEndian 4 (Crc32.checksum text).toNat ++ toLittleEndian 4 text.length
    ++ toLittleEndian 4 text.length ++ toLittleEndian 2 name.length ++ toLittleEndian 2 0
    ++ name ++ text

/-- The entry of the directory for a stored text whose record starts at `offset`. -/
private def directoryRecord (name text : Bytes) (offset : Nat) : Bytes :=
  toLittleEndian 4 directoryMark ++ toLittleEndian 2 20 ++ toLittleEndian 2 20 ++ toLittleEndian 8 0
    ++ toLittleEndian 4 (Crc32.checksum text).toNat ++ toLittleEndian 4 text.length
    ++ toLittleEndian 4 text.length ++ toLittleEndian 2 name.length ++ toLittleEndian 12 0
    ++ toLittleEndian 4 offset ++ name

/-- The records of entries from a position on, and the records of the directory. -/
private def records : Nat → List (Bytes × Bytes) → Bytes × Bytes
  | _, [] => ([], [])
  | offset, (name, text) :: rest =>
    let record := localRecord name text
    let (others, directory) := records (offset + record.length) rest
    (record ++ others, directoryRecord name text offset ++ directory)

/-- The archive of some named texts, which are stored as they are. -/
def write (files : List (Bytes × Bytes)) : Bytes :=
  let (body, directory) := records 0 files
  body ++ directory ++ toLittleEndian 4 endMark ++ toLittleEndian 4 0
    ++ toLittleEndian 2 files.length ++ toLittleEndian 2 files.length
    ++ toLittleEndian 4 directory.length ++ toLittleEndian 4 body.length ++ toLittleEndian 2 0

end Zip

end ReturnAudit.Archive
