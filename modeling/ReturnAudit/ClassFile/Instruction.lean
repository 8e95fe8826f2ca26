import ReturnAudit.ClassFile.Constant

/-!
# Instructions

A code array is a sequence of instructions without gaps. The operands of switches are aligned to a
multiple of four bytes, counted from the start of the code array, so an instruction's length can
depend on where it stands.
-/

namespace ReturnAudit.ClassFile

/-- A decoded instruction. -/
structure Instruction where
  /-- Where the instruction starts in its code array. -/
  pc : Nat
  /-- The opcode. -/
  opcode : Opcode
  /-- The number of bytes it takes. -/
  length : Nat
  /-- The numeric operand: a local variable, a value, a branch offset or a pool index. -/
  operand : Int
  /-- The field or method operand, when the pool is known. -/
  member : Option MemberRef
  /-- The class operand with slashes in its name, when the pool is known. -/
  classOperand : Option Bytes
  deriving DecidableEq, Repr

/-- The operands of an instruction. -/
structure Operand where
  /-- The numeric operand. -/
  number : Int := 0
  /-- The field or method operand. -/
  member : Option MemberRef := none
  /-- The class operand. -/
  classOperand : Option Bytes := none
  deriving DecidableEq, Repr

/-- What a look-up in the pool gives, or nothing when there is no pool. -/
def resolved (pool : Option Pool) (lookup : Pool → Except ReadError α) : Reader (Option α) :=
  match pool with
  | none => pure none
  | some pool => some <$> Reader.look (lookup pool)

/-- The number of padding bytes after the opcode of a switch at `pc`. -/
def switchPadding (pc : Nat) : Nat :=
  (4 - (pc + 1) % 4) % 4

/-- Reads the operands of the instruction with the given opcode at `pc`. -/
def readOperand (pool : Option Pool) (op : Opcode) (pc : Nat) : Reader Operand :=
  match op.operands with
  | .none => pure ⟨0, none, none⟩
  | .byte => do
    let v ← Reader.u1
    pure ⟨v.toNat, none, none⟩
  | .signedByte => do
    let v ← Reader.u1
    pure ⟨v.toInt8.toInt, none, none⟩
  | .short => do
    let v ← Reader.u2
    pure ⟨v.toNat, none, none⟩
  | .signedShort => do
    let v ← Reader.u2
    pure ⟨v.toInt16.toInt, none, none⟩
  | .signedWord => do
    let v ← Reader.s4
    pure ⟨v, none, none⟩
  | .localIncrement => do
    let index ← Reader.u1
    let _ ← Reader.u1
    pure ⟨index.toNat, none, none⟩
  | .member padding => do
    let index ← Reader.u2
    Reader.skip padding
    let member ← resolved pool (·.member index)
    pure ⟨index.toNat, member, none⟩
  | .classRef padding => do
    let index ← Reader.u2
    Reader.skip padding
    let name ← resolved pool (·.className index)
    pure ⟨index.toNat, none, name⟩
  | .tableSwitch => do
    Reader.skip (switchPadding pc)
    let default ← Reader.s4
    let low ← Reader.s4
    let high ← Reader.s4
    if high < low then Reader.fail (.switchBounds high low)
    Reader.skip ((high - low + 1).toNat * 4)
    pure ⟨default, none, none⟩
  | .lookupSwitch => do
    Reader.skip (switchPadding pc)
    let default ← Reader.s4
    let pairs ← Reader.s4
    if pairs < 0 then Reader.fail (.negativePairs pairs)
    Reader.skip (pairs.toNat * 8)
    pure ⟨default, none, none⟩
  | .wide => do
    let inner ← Reader.u1
    let index ← Reader.u2
    if Opcode.mk inner = .iinc then Reader.skip 2
    else if !(Opcode.mk inner).isWidened then Reader.fail (.notWidened ⟨inner⟩)
    pure ⟨index.toNat, none, none⟩
  | .undefined => Reader.fail (.undefinedOpcode op)

/-- Reads one instruction. -/
def readInstruction (pool : Option Pool) : Reader Instruction := fun c => do
  let (code, c₁) ← Reader.u1 c
  let op : Opcode := ⟨code⟩
  let (operand, c₂) ← Reader.within (.instruction op c.offset) (readOperand pool op c.offset) c₁
  pure (⟨c.offset, op, c₂.offset - c.offset, operand.number, operand.member, operand.classOperand⟩,
    c₂)

/-- Reads instructions until the data ends. Every instruction takes at least one byte, so `bound`
instructions suffice when that many bytes are left. -/
def readInstructions (pool : Option Pool) : (bound : Nat) → Reader (List Instruction)
  | 0 => pure []
  | bound + 1 => fun c =>
    if c.rest.isEmpty then .ok ([], c)
    else do
      let (insn, c) ← readInstruction pool c
      let (insns, c) ← readInstructions pool bound c
      pure (insn :: insns, c)

/-- The instructions of a code array in order. Without a pool the operands stay unresolved. -/
def decode (pool : Option Pool) (code : Bytes) : Except ReadError (List Instruction) :=
  Reader.run (readInstructions pool code.length) code

end ReturnAudit.ClassFile
