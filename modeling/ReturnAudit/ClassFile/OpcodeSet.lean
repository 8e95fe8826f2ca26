import ReturnAudit.ClassFile.Opcode

/-!
# Sets of opcodes

A set of opcodes is a table of 256 bits, one for each code, in four words of 64 bits. The upper two
bits of a code choose the word and the lower six bits the place in it.
-/

namespace ReturnAudit

namespace Opcode

/-- The word that holds the bit of an opcode. -/
def word (op : Opcode) : Fin 4 :=
  ⟨(op.code >>> 6).toNat, by
    have hcode := op.code.toNat_lt
    rw [UInt8.toNat_shiftRight, show (6 : UInt8).toNat % 8 = 6 from rfl, Nat.shiftRight_eq_div_pow]
    omega⟩

/-- A word in which only the bit of an opcode is set. -/
def mask (op : Opcode) : UInt64 :=
  1 <<< (op.code &&& 63).toUInt64

end Opcode

/-- A set of opcodes. -/
structure OpcodeSet where
  /-- Bit `b` of word `w` is set when the opcode with code `64 * w + b` is a member. -/
  words : Vector UInt64 4
  deriving DecidableEq

namespace OpcodeSet

/-- The set without members. -/
def empty : OpcodeSet := ⟨.replicate 4 0⟩

/-- The set with one more member. -/
def insert (s : OpcodeSet) (op : Opcode) : OpcodeSet :=
  ⟨s.words.set op.word (s.words.get op.word ||| op.mask) op.word.isLt⟩

/-- The set of the listed opcodes. -/
def ofList (ops : List Opcode) : OpcodeSet :=
  ops.foldl insert empty

/-- Whether an opcode is a member. -/
def has (s : OpcodeSet) (op : Opcode) : Bool :=
  s.words.get op.word &&& op.mask != 0

/-- Whether two sets share a member. -/
def meets (s t : OpcodeSet) : Bool :=
  (List.finRange 4).any fun w => s.words.get w &&& t.words.get w != 0

/-- Whether there is no member. -/
def isEmpty (s : OpcodeSet) : Bool :=
  s = empty

/-- The members in the order of their codes. -/
def toList (s : OpcodeSet) : List Opcode :=
  ((List.range 256).map fun c => Opcode.mk c.toUInt8).filter s.has

/-- The number of members. -/
def size (s : OpcodeSet) : Nat :=
  (List.finRange 4).foldl (fun n w => n + (s.words.get w).toBitVec.cpop.toNat) 0

/-- The opcodes that drop a result. -/
def discards : OpcodeSet :=
  ofList [.pop, .pop2]

/-- The opcodes that call a method. -/
def invokes : OpcodeSet :=
  ofList [.invokeinterface, .invokespecial, .invokestatic, .invokevirtual]

/-- Whether a set shares a member with every one of the given families. -/
def meetsAll (s : OpcodeSet) (families : List OpcodeSet) : Bool :=
  families.all s.meets

end OpcodeSet

end ReturnAudit
