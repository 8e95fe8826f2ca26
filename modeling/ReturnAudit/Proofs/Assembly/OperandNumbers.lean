import ReturnAudit.Proofs.Assembly.OperandForms
import ReturnAudit.Proofs.ClassFile.InstructionLength

/-!
# Numbers in assembled code

A number on a line of assembly is written into a field of the code, and what does not fit the field
is cut off. Decoding the code gives one instruction for each line, with the mnemonic of the line and
with the number reduced to its field. No pool is needed for that, and none matters.
-/

namespace ReturnAudit.Assembly

open ClassFile (Reads Reader Operand Instruction readOperand readInstruction Decodes)

/-- A field of the code that holds a number. -/
structure NumberField where
  /-- The number of bits. -/
  bits : Nat
  /-- Whether the number is read in two's complement. -/
  signed : Bool
  deriving DecidableEq, Repr

namespace NumberField

/-- The number that comes back from a field into which another one was written. -/
def residue (field : NumberField) (v : Int) : Int :=
  if field.signed then v.bmod (2 ^ field.bits) else v % 2 ^ field.bits

/-- Whether a number is in the range of a field. -/
def Holds (field : NumberField) (v : Int) : Prop :=
  if field.signed then -2 ^ field.bits ≤ 2 * v ∧ 2 * v < 2 ^ field.bits
  else 0 ≤ v ∧ v < 2 ^ field.bits

/-- A number within the range of a field comes back unchanged. -/
theorem residue_of_holds {field : NumberField} {v : Int} (h : field.Holds v) :
    field.residue v = v := by
  obtain ⟨bits, signed⟩ := field
  cases signed with
  | true =>
    obtain ⟨hlow, hhigh⟩ : -2 ^ bits ≤ 2 * v ∧ 2 * v < 2 ^ bits := h
    exact Int.bmod_eq_of_le_mul_two (by push_cast; omega) (by push_cast; omega)
  | false =>
    obtain ⟨hlow, hhigh⟩ : 0 ≤ v ∧ v < 2 ^ bits := h
    exact Int.emod_eq_of_lt hlow hhigh

end NumberField

/-- The field of the number that an instruction takes, if it takes one. Fields are as wide as the
length of the instruction says, and signed but for local variables, types of arrays and the two
instructions that give the index of a constant. For an increment this is the local variable; what is
added to it is no operand of the decoded instruction. -/
def numberField? (op : Opcode) : Option NumberField :=
  if op.hasMemberOperand || op.hasClassOperand || op = .ldc then none
  else if op = .iinc then some ⟨8, false⟩
  else
    match ClassFile.fixedLengths[op.code.toNat]? with
    | some 2 => some ⟨8, op = .bipush⟩
    | some 3 => some ⟨16, op.code ≠ 0x13 && op.code ≠ 0x14⟩
    | some 5 => some ⟨32, true⟩
    | _ => none

/-- The field that goes with each shape of operand bytes. -/
def shapeField : Opcode.Operands → Option NumberField
  | .byte | .localIncrement => some ⟨8, false⟩
  | .signedByte => some ⟨8, true⟩
  | .short => some ⟨16, false⟩
  | .signedShort => some ⟨16, true⟩
  | .signedWord => some ⟨32, true⟩
  | .none | .member _ | .classRef _ | .tableSwitch | .lookupSwitch | .wide | .undefined => none

/-- The opcodes whose numbers differ from others of the same width. -/
theorem operands_exceptions : ∀ op : Opcode,
    (op.operands = .signedByte ↔ op = .bipush) ∧
      (op.operands = .short ↔ op.code = 0x13 ∨ op.code = 0x14) ∧
      (op.operands = .localIncrement ↔ op = .iinc) :=
  Opcode.forall_of_codes (by decide +kernel)

/-- The fields agree with the shapes of all opcodes but one, whose operand byte is the index of a
constant. -/
theorem numberField?_eq (op : Opcode) :
    numberField? op = if op = .ldc then none else shapeField op.operands := by
  by_cases hldc : op = .ldc
  · subst hldc
    rfl
  obtain ⟨hbipush, hshort, hiinc⟩ := operands_exceptions op
  have hlength := ClassFile.fixedLengths_eq op
  rw [if_neg hldc]
  cases hop : op.operands with
  | signedByte =>
    obtain rfl := hbipush.mp hop
    rfl
  | localIncrement =>
    obtain rfl := hiinc.mp hop
    rfl
  | short =>
    obtain ⟨code⟩ := op
    rcases hshort.mp hop with rfl | rfl <;> rfl
  | member padding | classRef padding =>
    simp [numberField?, Opcode.hasMemberOperand, Opcode.hasClassOperand, shapeField, hop]
  | none | byte | signedShort | signedWord | tableSwitch | lookupSwitch | wide | undefined =>
    rw [hop] at hbipush hshort hiinc hlength
    simp only [reduceCtorEq, false_iff, not_or] at hbipush hshort hiinc
    simp [numberField?, Opcode.hasMemberOperand, Opcode.hasClassOperand, shapeField,
      ClassFile.shapeLength, hop, hldc, hbipush, hshort, hiinc, hlength]

/-- The opcode of a mnemonic has that mnemonic. -/
theorem mnemonic_of_ofMnemonic? {name : Bytes} {op : Opcode}
    (h : Opcode.ofMnemonic? name = some op) : op.mnemonic = name := by
  obtain ⟨i, hi, rfl⟩ := Option.map_eq_some_iff.mp h
  obtain ⟨hlt, hname, -⟩ := List.findIdx?_eq_some_iff_getElem.mp hi
  have hcode : i.toUInt8.toNat = i := by
    rw [Nat.toUInt8, UInt8.toNat_ofNat']
    exact Nat.mod_eq_of_lt (lt_of_lt_of_le hlt (by decide +kernel))
  rw [Opcode.mnemonic, hcode, List.getElem?_eq_getElem hlt]
  exact of_decide_eq_true hname

/-- The number that a line gives for the operand: for an increment, the local variable. -/
def operandNumber? (op : Opcode) (operand : Bytes) : Option Int :=
  if op = .iinc then (readIncrement operand).toOption.map Prod.fst
  else (Numeral.readInt 10 64 operand).toOption

section

variable (n : Int)

/-- The low byte of a number is its residue in an unsigned field of one byte. -/
theorem toNat_lowByte : ((lowByte n).toNat : Int) = NumberField.residue ⟨8, false⟩ n := by
  have hlt := (BitVec.ofInt 8 n).isLt
  rw [lowByte, Nat.toUInt8, UInt8.toNat_ofNat', Nat.mod_eq_of_lt hlt, BitVec.toNat_ofInt,
    Int.toNat_of_nonneg (Int.emod_nonneg _ (by decide))]
  rfl

/-- With its sign, it is the residue in a signed field of one byte. -/
theorem toInt_lowByte : (lowByte n).toInt8.toInt = NumberField.residue ⟨8, true⟩ n := by
  change (BitVec.ofNat 8 (BitVec.ofInt 8 n).toNat).toInt = _
  rw [BitVec.ofNat_toNat, BitVec.setWidth_eq, BitVec.toInt_ofInt]
  rfl

/-- The low two bytes of a number are its residue in an unsigned field of two bytes. -/
theorem toNat_lowShort : ((BitVec.ofInt 16 n).toNat.toUInt16.toNat : Int) =
    NumberField.residue ⟨16, false⟩ n := by
  have hlt := (BitVec.ofInt 16 n).isLt
  rw [Nat.toUInt16, UInt16.toNat_ofNat', Nat.mod_eq_of_lt hlt, BitVec.toNat_ofInt,
    Int.toNat_of_nonneg (Int.emod_nonneg _ (by decide))]
  rfl

/-- With their sign, they are the residue in a signed field of two bytes. -/
theorem toInt_lowShort : (BitVec.ofInt 16 n).toNat.toUInt16.toInt16.toInt =
    NumberField.residue ⟨16, true⟩ n := by
  change (BitVec.ofNat 16 (BitVec.ofInt 16 n).toNat).toInt = _
  rw [BitVec.ofNat_toNat, BitVec.setWidth_eq, BitVec.toInt_ofInt]
  rfl

/-- The low four bytes of a number with their sign are its residue in a signed field of four
bytes. -/
theorem toInt_lowWord : (BitVec.ofInt 32 n).toNat.toUInt32.toInt32.toInt =
    NumberField.residue ⟨32, true⟩ n := by
  change (BitVec.ofNat 32 (BitVec.ofInt 32 n).toNat).toInt = _
  rw [BitVec.ofNat_toNat, BitVec.setWidth_eq, BitVec.toInt_ofInt]
  rfl

end

/-- Whether a step that succeeds gives bytes with a property, whatever the pool. -/
def Yields (step : Assembler Bytes) (P : Bytes → Prop) : Prop :=
  ∀ p b q, step p = .ok (b, q) → P b

namespace Yields

variable {P : Bytes → Prop}

/-- What is given without a step. -/
theorem pure {b : Bytes} (h : P b) : Yields (Pure.pure b) P := by
  intro p b' q hrun
  obtain ⟨rfl, -⟩ := of_run_pure hrun
  exact h

/-- A step that fails gives anything. -/
theorem throw (fault : LineFault) : Yields (MonadExcept.throw fault) P := by
  intro p b q hrun
  cases hrun

/-- A request for a constant always succeeds. -/
theorem pooled {request : StateM PoolBuilder UInt16} {f : UInt16 → Bytes} (h : ∀ i, P (f i)) :
    Yields (do let i ← Assembly.pooled request; Pure.pure (f i)) P := by
  intro p b q hrun
  obtain ⟨i, _, -, hpure⟩ := of_run_bind hrun
  obtain ⟨rfl, -⟩ := of_run_pure hpure
  exact h i

end Yields

/-- Whether operand bytes are read back without a pool, and a number on the line comes back reduced
to its field. -/
def ReadsBack (op : Opcode) (operand : Bytes) (pc : Nat) (b : Bytes) : Prop :=
  ∃ v : Operand, (∀ o, Reads o (readOperand none op pc) b v) ∧
    ∀ field ∈ numberField? op, ∃ n, operandNumber? op operand = some n ∧
      v.number = field.residue n

section

variable {op : Opcode} {operand : Bytes}

/-- The number of an operand comes back reduced to the field of its shape. -/
private theorem exists_operandNumber {shape : Opcode.Operands} {v n : Int} {field own : NumberField}
    (hfield : field ∈ numberField? op) (hop : op.operands = shape)
    (hown : shapeField shape = some own) (hnumber : operandNumber? op operand = some n)
    (hresidue : v = own.residue n) :
    ∃ n, operandNumber? op operand = some n ∧ v = field.residue n := by
  rw [numberField?_eq, hop, hown] at hfield
  split at hfield
  · cases hfield
  · obtain rfl := Option.some.inj hfield
    exact ⟨n, hnumber, hresidue⟩

/-- Only for an increment is the number a part of the operand. -/
private theorem exists_wholeNumber {shape : Opcode.Operands} {v n : Int} {field own : NumberField}
    (hfield : field ∈ numberField? op) (hop : op.operands = shape)
    (hlocal : shape ≠ .localIncrement) (hread : Numeral.readInt 10 64 operand = .ok n)
    (hown : shapeField shape = some own) (hresidue : v = own.residue n) :
    ∃ n, operandNumber? op operand = some n ∧ v = field.residue n := by
  have hne : op ≠ .iinc := by
    rintro rfl
    exact hlocal hop.symm
  refine exists_operandNumber hfield hop hown ?_ hresidue
  rw [operandNumber?, if_neg hne, hread]
  rfl

/-- A number comes back reduced to the field that the opcode gives it. -/
theorem PlainForm.residue {b : Bytes} {v : Int} (h : PlainForm op operand b v)
    {field : NumberField} (hfield : field ∈ numberField? op) :
    ∃ n, operandNumber? op operand = some n ∧ v = field.residue n := by
  cases h with
  | empty hop =>
    rw [numberField?_eq, hop, shapeField, ite_self] at hfield
    cases hfield
  | @byte n hop _ hread => exact exists_wholeNumber hfield hop nofun hread rfl (toNat_lowByte n)
  | @signedByte n hop hread =>
    exact exists_wholeNumber hfield hop nofun hread rfl (toInt_lowByte n)
  | @short n hop hread => exact exists_wholeNumber hfield hop nofun hread rfl (toNat_lowShort n)
  | @signedShort n hop hread =>
    exact exists_wholeNumber hfield hop nofun hread rfl (toInt_lowShort n)
  | @signedWord n hop hread =>
    exact exists_wholeNumber hfield hop nofun hread rfl (toInt_lowWord n)
  | @increment index delta hop hread =>
    refine exists_operandNumber hfield hop rfl ?_ (toNat_lowByte index)
    rw [operandNumber?, if_pos ((operands_exceptions op).2.2.mp hop), hread]
    rfl

/-- An operand that needs a constant is not written as a number. -/
theorem IndexForm.numberField?_eq_none {request : StateM PoolBuilder UInt16} {key : Key}
    {f : UInt16 → Bytes} (h : IndexForm op operand request key f) : numberField? op = none := by
  rw [numberField?_eq]
  cases h with
  | member hform => rw [hform.operands_eq, shapeField, ite_self]
  | classRef hop => rw [hop, shapeField, ite_self]
  | string hop | integer hop => rw [if_pos hop]

end

/-- The operand bytes of a line are read back, and its number comes back reduced to its field. -/
theorem yields_assembleOperand (op : Opcode) (mnemonic operand : Bytes) (pc : Nat) :
    Yields (assembleOperand op mnemonic operand) (ReadsBack op operand pc) := by
  have hstep := operandStep op mnemonic operand
  generalize assembleOperand op mnemonic operand = step at hstep ⊢
  cases hstep with
  | fault fault => exact .throw fault
  | plain hform => exact .pure ⟨_, hform.reads none pc, fun field hfield => hform.residue hfield⟩
  | @index request key f hform =>
    refine .pooled fun i => ?_
    obtain ⟨v, hv⟩ : ∃ v, ∀ o, Reads o (readOperand none op pc) (f i) v :=
      hform.reads (fun cp hcp => (Option.not_mem_none cp hcp).elim) pc
    refine ⟨v, hv, fun field hfield => ?_⟩
    rw [hform.numberField?_eq_none] at hfield
    cases hfield

/-- Whether an instruction is the one on a line: it has the mnemonic of the line, and where the
operand is written as a number, it is that number reduced to its field. -/
structure Matches (line : Bytes) (insn : Instruction) : Prop where
  /-- The mnemonic is that of the line. -/
  mnemonic_eq : insn.opcode.mnemonic = (splitLine line).1
  /-- The number is reduced to its field, so one in the range of the field comes back unchanged. -/
  operand_eq : ∀ field ∈ numberField? insn.opcode,
    ∃ n, operandNumber? insn.opcode (splitLine line).2 = some n ∧
      insn.operand = field.residue n ∧ (field.Holds n → insn.operand = n)

/-- The bytes of a line are read back at any position as the instruction on the line. -/
theorem reads_of_assembleLine {line : Bytes} {p q : PoolBuilder} {b : Bytes}
    (h : assembleLine line p = .ok (b, q)) (pc : Nat) :
    ∃ insn, Reads pc (readInstruction none) b insn ∧ Matches line insn := by
  obtain ⟨op, bytes, hop, rfl, hrun⟩ := of_assembleLine h
  obtain ⟨v, hreads, hnumber⟩ := yields_assembleOperand op _ _ pc p bytes q hrun
  refine ⟨_, ClassFile.reads_readInstruction (hreads 0), mnemonic_of_ofMnemonic? hop, ?_⟩
  intro field hfield
  obtain ⟨n, hn, hresidue⟩ := hnumber field hfield
  exact ⟨n, hn, hresidue, fun hholds => hresidue.trans (NumberField.residue_of_holds hholds)⟩

/-- Assembled lines fall into the instructions on the lines, at the positions of the assembler. -/
theorem decodes_of_assembleFrom {lines : List Bytes} {number pc : Nat} {p q : PoolBuilder}
    {code : Bytes} {pcs : List Nat} (h : assembleFrom number pc lines p = .ok ((code, pcs), q)) :
    ∃ insns, Decodes none pc code insns ∧ insns.map (·.pc) = pcs ∧
      List.Forall₂ Matches lines insns := by
  induction lines generalizing number pc p code pcs with
  | nil =>
    cases h
    exact ⟨[], .nil pc, rfl, .nil⟩
  | cons line lines ih =>
    obtain ⟨b, r, code', pcs', hline, hrest, rfl, rfl⟩ := of_assembleFrom_cons h
    obtain ⟨insn, hinsn, hmatches⟩ := reads_of_assembleLine hline pc
    obtain ⟨insns, hinsns, hpcs, hall⟩ := ih hrest
    refine ⟨insn :: insns, .cons hinsn hinsns, ?_, .cons hmatches hall⟩
    rw [List.map_cons, ClassFile.pc_of_reads hinsn, hpcs]

/-- Assembled lines are decoded without a pool to one instruction for each line, at the positions
that the assembler gave, with the mnemonics of the lines and their numbers reduced to their
fields. -/
theorem decode_assemble {lines : List Bytes} {p q : PoolBuilder} {code : Bytes} {pcs : List Nat}
    (h : assemble lines p = .ok ((code, pcs), q)) :
    ∃ insns, ClassFile.decode none code = .ok insns ∧ insns.map (·.pc) = pcs ∧
      List.Forall₂ Matches lines insns := by
  obtain ⟨insns, hinsns, hpcs, hmatches⟩ := decodes_of_assembleFrom h
  exact ⟨insns, ClassFile.decode_eq_ok_iff.mpr hinsns, hpcs, hmatches⟩

/-- Numbers inside and outside of their fields. -/
def overflowing : List Bytes :=
  ["bipush 200", "iload 300", "iinc -1 5", "ldc_w -1", " sipush  40000 "].map Bytes.ofString

/-- The code of these lines. -/
def overflowingCode : Bytes :=
  [0x10, 0xc8] ++ [0x15, 0x2c] ++ [0x84, 0xff, 0x05] ++ [0x13, 0xff, 0xff] ++ [0x11, 0x9c, 0x40]

/-- The numbers come back reduced to their fields. -/
theorem decode_assemble_overflowing :
    (assemble overflowing .empty).map (·.1) = .ok (overflowingCode, [0, 2, 4, 7, 10]) ∧
    (ClassFile.decode none overflowingCode).map (·.map fun i => i.operand) =
      .ok [-56, 44, 255, 65535, -25536] ∧
    ∃ insns, ClassFile.decode none overflowingCode = .ok insns ∧
      insns.map (·.pc) = [0, 2, 4, 7, 10] ∧ List.Forall₂ Matches overflowing insns := by
  have hcode : (assemble overflowing .empty).map (·.1) =
      .ok (overflowingCode, [0, 2, 4, 7, 10]) := by decide +kernel
  obtain ⟨⟨⟨code, pcs⟩, q⟩, hassemble, hfirst⟩ := of_map hcode
  cases hfirst
  exact ⟨hcode, by decide +kernel, decode_assemble hassemble⟩

end ReturnAudit.Assembly
