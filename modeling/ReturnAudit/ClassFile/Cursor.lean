import ReturnAudit.ClassFile.Fault

/-!
# Reading big-endian data

A cursor is what is left of a byte text together with the offset reached. A reader takes values off
the front of what is left, or fails with the offset at which the data ended.
-/

namespace ReturnAudit.ClassFile

/-- A position in a byte text. -/
structure Cursor where
  /-- How many bytes have been read. -/
  offset : Nat
  /-- The bytes that are left. -/
  rest : Bytes
  deriving DecidableEq, Repr

/-- The beginning of a byte text. -/
def Cursor.start (data : Bytes) : Cursor := ⟨0, data⟩

/-- A reading step: it advances the cursor or fails. -/
abbrev Reader (α : Type) := StateT Cursor (Except ReadError) α

namespace Reader

/-- Runs a reader from the beginning of a byte text. -/
def run (r : Reader α) (data : Bytes) : Except ReadError α :=
  (r (Cursor.start data)).map Prod.fst

/-- Fails with a fault. -/
def fail (fault : Fault) : Reader α :=
  fun _ => .error (.of fault)

/-- The result of a look-up that reads nothing. -/
def look (result : Except ReadError α) : Reader α :=
  fun c => result.map fun a => (a, c)

/-- A reader whose fault, if any, is seen from one place further out. -/
def within (place : Place) (r : Reader α) : Reader α :=
  fun c => locate place (r c)

/-- The next `n` bytes. -/
def take (n : Nat) : Reader Bytes := fun c =>
  match Bytes.splitExactly n c.rest with
  | some (taken, rest) => .ok (taken, ⟨c.offset + n, rest⟩)
  | none => .error (.of (.truncated n c.offset))

/-- Passes over `n` bytes. -/
def skip (n : Nat) : Reader Unit := fun c =>
  match Bytes.splitExactly n c.rest with
  | some (_, rest) => .ok ((), ⟨c.offset + n, rest⟩)
  | none => .error ⟨[.skipping], .truncated n c.offset⟩

/-- An unsigned byte. -/
def u1 : Reader UInt8 := fun c =>
  match c.rest with
  | b :: rest => .ok (b, ⟨c.offset + 1, rest⟩)
  | _ => .error (.of (.truncated 1 c.offset))

/-- An unsigned 16-bit number. -/
def u2 : Reader UInt16 := fun c =>
  match c.rest with
  | a :: b :: rest => .ok (a.toUInt16 <<< 8 ||| b.toUInt16, ⟨c.offset + 2, rest⟩)
  | _ => .error (.of (.truncated 2 c.offset))

/-- An unsigned 32-bit number. -/
def u4 : Reader UInt32 := fun c =>
  match c.rest with
  | a :: b :: d :: e :: rest =>
    .ok (a.toUInt32 <<< 24 ||| b.toUInt32 <<< 16 ||| d.toUInt32 <<< 8 ||| e.toUInt32,
      ⟨c.offset + 4, rest⟩)
  | _ => .error (.of (.truncated 4 c.offset))

/-- A signed 32-bit number. -/
def s4 : Reader Int := do
  let v ← u4
  pure v.toInt32.toInt

/-- `count` values in a row; `item` is told the position of each, counted from `first`. -/
def manyFrom (item : Nat → Reader α) (first : Nat) : (count : Nat) → Reader (List α)
  | 0 => pure []
  | count + 1 => do
    let a ← item first
    let as ← manyFrom item (first + 1) count
    pure (a :: as)

/-- `count` values in a row; `item` is told the position of each, counted from zero. -/
def many (count : Nat) (item : Nat → Reader α) : Reader (List α) :=
  manyFrom item 0 count

end Reader

end ReturnAudit.ClassFile
