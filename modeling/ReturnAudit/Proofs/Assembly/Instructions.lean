import ReturnAudit.Proofs.Assembly.OperandForms

/-!
# Assembled instructions

The bytes of a line are read back as one instruction with the opcode of the line. How many bytes a
line takes is decided by its opcode alone, so positions do not depend on the constant pool. An
assembled list of lines is decoded to one instruction for each line at the positions that the
assembler gave, with any pool that resolves the indices that were handed out, or with none.
-/

namespace ReturnAudit.Assembly

open ClassFile (Pool Reads Reader Operand Instruction readOperand readInstruction)
open PoolBuilder (Files Grown Resolves)

/-- The number of operand bytes of each shape that the assembler writes. -/
def operandLength : Opcode.Operands → Nat
  | .byte | .signedByte => 1
  | .short | .signedShort | .localIncrement => 2
  | .signedWord => 4
  | .member padding | .classRef padding => 2 + padding
  | .none | .tableSwitch | .lookupSwitch | .wide | .undefined => 0

/-- Whether a step writes operand bytes of a given number: the pool grows, a later pool gets the
same bytes and stays as it is, and the bytes are read back as an operand. -/
def WritesOperand (step : Assembler Bytes) (length : Nat) (read : Option Pool → Reader Operand) :
    Prop :=
  ∀ p b q, p.Sound → step p = .ok (b, q) → Grown p q ∧ b.length = length ∧
    (∀ r, q.Later r → step r = .ok (b, r)) ∧
    ∀ pool, (∀ cp ∈ pool, Resolves cp q) → ∃ v, ∀ o, Reads o (read pool) b v

variable {length : Nat} {read : Option Pool → Reader Operand}

/-- Bytes that need no constant. -/
theorem writesOperand_pure {b : Bytes} (hlength : b.length = length)
    (hread : ∀ pool, ∃ v, ∀ o, Reads o (read pool) b v) :
    WritesOperand (pure b) length read := by
  intro p b' q hp h
  obtain ⟨rfl, rfl⟩ := of_run_pure h
  exact ⟨.refl hp, hlength, fun _ _ => rfl, fun pool _ => hread pool⟩

/-- A step that fails writes nothing. -/
theorem writesOperand_throw (fault : LineFault) :
    WritesOperand (throw fault) length read := by
  intro p b q _ h
  cases h

/-- Bytes that hold the index of a constant. -/
theorem writesOperand_pooled {request : StateM PoolBuilder UInt16} {key : Key}
    (hfiles : Files request key) {f : UInt16 → Bytes} (hlength : ∀ i, (f i).length = length)
    (hread : ∀ (q : PoolBuilder) i pool, q.Has key i → (∀ cp ∈ pool, Resolves cp q) →
      ∃ v, ∀ o, Reads o (read pool) (f i) v) :
    WritesOperand (do let i ← pooled request; pure (f i)) length read := by
  intro p b q hp h
  obtain ⟨i, r, hr, hgrown, hi, hagain⟩ := hfiles p hp
  obtain ⟨i', r', hr', hpure⟩ := of_run_bind h
  rw [pooled, hr] at hr'
  cases hr'
  obtain ⟨rfl, rfl⟩ := of_run_pure hpure
  refine ⟨hgrown, hlength i, ?_, fun pool hpool => hread q i pool hi hpool⟩
  intro s hs
  simp only [bind, StateT.bind, Except.bind, pooled, hagain s hs]
  rfl

/-- A short number has two bytes. -/
theorem length_beShort (n : Nat) : (beShort n).length = 2 := rfl

/-- A number has four bytes. -/
theorem length_beWord (n : Nat) : (beWord n).length = 4 := rfl

section

variable {op : Opcode} {operand : Bytes}

/-- An operand without an index is as long as the opcode says. -/
theorem PlainForm.length_eq {b : Bytes} {v : Int} (h : PlainForm op operand b v) :
    b.length = operandLength op.operands := by
  cases h <;> simp only [*] <;> rfl

/-- An operand with an index is as long as the opcode says, whatever the index is. -/
theorem IndexForm.length_eq {request : StateM PoolBuilder UInt16} {key : Key} {f : UInt16 → Bytes}
    (h : IndexForm op operand request key f) (i : UInt16) :
    (f i).length = operandLength op.operands := by
  cases h with
  | member hform => rw [List.length_append, length_beShort, hform.operands_eq, operandLength]
  | classRef hop =>
    rw [List.length_append, length_beShort, List.length_replicate, hop, operandLength]
  | string hop | integer hop =>
    subst hop
    rfl

end

/-- The operand of a line is read back by its opcode. -/
theorem writesOperand_assembleOperand (op : Opcode) (mnemonic operand : Bytes) (pc : Nat) :
    WritesOperand (assembleOperand op mnemonic operand) (operandLength op.operands)
      (fun pool => readOperand pool op pc) := by
  have hstep := operandStep op mnemonic operand
  generalize assembleOperand op mnemonic operand = step at hstep ⊢
  cases hstep with
  | fault fault => exact writesOperand_throw fault
  | plain hform => exact writesOperand_pure hform.length_eq fun pool => ⟨_, hform.reads pool pc⟩
  | index hform =>
    exact writesOperand_pooled hform.files hform.length_eq fun q i pool hi hpool =>
      hform.reads (fun cp hcp => ⟨q, hpool cp hcp, hi⟩) pc

/-- The number of bytes of the instruction on a line. -/
def lineLength (line : Bytes) : Nat :=
  ((Opcode.ofMnemonic? (splitLine line).1).map fun op => 1 + operandLength op.operands).getD 0

/-- Whether an instruction has the opcode that a line names. -/
def HasOpcode (line : Bytes) (insn : Instruction) : Prop :=
  Opcode.ofMnemonic? (splitLine line).1 = some insn.opcode

/-- What a line comes to: the pool grows, the line has its length, a later pool gets the same bytes,
and the bytes are read back as an instruction with the opcode that the line names. -/
structure AssemblesLine (line : Bytes) (p : PoolBuilder) (b : Bytes) (q : PoolBuilder) : Prop where
  /-- The pool grows. -/
  grown : Grown p q
  /-- The opcode decides how many bytes there are. -/
  length_eq : b.length = lineLength line
  /-- There is at least the opcode. -/
  length_pos : 0 < b.length
  /-- A later pool gets the same bytes and stays as it is. -/
  again : ∀ r, q.Later r → assembleLine line r = .ok (b, r)
  /-- The bytes are read back. -/
  reads : ∀ pool pc, (∀ cp ∈ pool, Resolves cp q) → ∃ insn : Instruction,
    Reads pc (readInstruction pool) b insn ∧ insn.pc = pc ∧ HasOpcode line insn

/-- A line that is accepted is assembled into the bytes of an instruction, in a grown pool. -/
theorem assemblesLine {line : Bytes} {p q : PoolBuilder} {b : Bytes} (hp : p.Sound)
    (h : assembleLine line p = .ok (b, q)) : AssemblesLine line p b q := by
  obtain ⟨op, bytes, hop, rfl, hrun⟩ := of_assembleLine h
  obtain ⟨hgrown, hlength, hagain, _⟩ := writesOperand_assembleOperand op _ _ 0 p bytes q hp hrun
  refine ⟨hgrown, ?_, Nat.succ_pos _, ?_, ?_⟩
  · simp only [lineLength, hop, Option.map_some, Option.getD_some, List.length_cons, hlength,
      Nat.add_comm]
  · intro r hr
    unfold assembleLine
    simp only [hop, bind, StateT.bind, Except.bind, hagain r hr]
    rfl
  · intro pool pc hpool
    obtain ⟨_, _, _, hreads⟩ := writesOperand_assembleOperand op _ _ pc p bytes q hp hrun
    obtain ⟨v, hv⟩ := hreads pool hpool
    exact ⟨_, ClassFile.reads_readInstruction (hv 0), rfl, hop⟩

/-- The number of bytes of the instructions on some lines. -/
def codeLength (lines : List Bytes) : Nat :=
  (lines.map lineLength).sum

/-- What some lines come to when the first instruction stands at `pc`. -/
structure Assembles (lines : List Bytes) (pc : Nat) (p : PoolBuilder) (code : Bytes)
    (pcs : List Nat) (q : PoolBuilder) : Prop where
  /-- The pool grows. -/
  grown : Grown p q
  /-- The opcodes decide how many bytes there are. -/
  length_eq : code.length = codeLength lines
  /-- There is one position for each line. -/
  length_pcs : pcs.length = lines.length
  /-- Positions grow from the first one on and stay inside the code. -/
  increasing : pcs.Pairwise (· < ·) ∧ ∀ i ∈ pcs, pc ≤ i ∧ i < pc + code.length
  /-- A later pool gets the same code and stays as it is. -/
  again : ∀ number r, q.Later r → assembleFrom number pc lines r = .ok ((code, pcs), r)
  /-- The code is decoded to one instruction for each line. -/
  reads : ∀ pool bound, (∀ cp ∈ pool, Resolves cp q) → code.length ≤ bound →
    ∃ insns : List Instruction,
      ClassFile.readInstructions pool bound ⟨pc, code⟩ = .ok (insns, ⟨pc + code.length, []⟩) ∧
        insns.map (·.pc) = pcs ∧ List.Forall₂ HasOpcode lines insns

/-- A first line and what follows it. -/
private theorem Assembles.cons {line : Bytes} {lines : List Bytes} {pc : Nat}
    {p q r : PoolBuilder} {b code : Bytes} {pcs : List Nat} (h : AssemblesLine line p b q)
    (hs : Assembles lines (pc + b.length) q code pcs r) :
    Assembles (line :: lines) pc p (b ++ code) (pc :: pcs) r := by
  have hpos := h.length_pos
  refine ⟨h.grown.trans hs.grown, ?_, ?_, ⟨?_, ?_⟩, ?_, ?_⟩
  · rw [List.length_append, h.length_eq, hs.length_eq]
    rfl
  · rw [List.length_cons, hs.length_pcs, List.length_cons]
  · refine List.pairwise_cons.mpr ⟨?_, hs.increasing.1⟩
    intro i hi
    have := hs.increasing.2 i hi
    omega
  · intro i hi
    rw [List.length_append]
    rcases List.mem_cons.mp hi with rfl | hi
    · omega
    · have := hs.increasing.2 i hi
      omega
  · intro number t ht
    simp only [assembleFrom, h.again t (hs.grown.later.trans ht), bind, Except.bind,
      hs.again _ t ht]
    rfl
  · -- the finished pool has what the first line asked for, since pools only grow
    intro pool bound hpool hbound
    rw [List.length_append] at hbound
    obtain ⟨bound, rfl⟩ : ∃ n, bound = n + 1 := ⟨bound - 1, by omega⟩
    obtain ⟨insn, hinsn, hpc, hop⟩ := h.reads pool pc fun cp hcp =>
      (hpool cp hcp).of_later hs.grown.later
    obtain ⟨insns, hinsns, hpcs, hops⟩ := hs.reads pool bound hpool (by omega)
    have hne : (b ++ code).isEmpty = false := by
      rw [List.isEmpty_eq_false_iff, ← List.length_pos_iff, List.length_append]
      omega
    refine ⟨insn :: insns, ?_, ?_, .cons hop hops⟩
    · simp only [ClassFile.readInstructions, hne, Bool.false_eq_true, if_false, bind, Except.bind,
        hinsn code, hinsns, List.length_append, Nat.add_assoc]
      rfl
    · rw [List.map_cons, hpc, hpcs]

/-- Assembled lines come to code that is decoded to one instruction for each line. -/
theorem assembles {lines : List Bytes} {number pc : Nat} {p q : PoolBuilder} {code : Bytes}
    {pcs : List Nat} (hp : p.Sound) (h : assembleFrom number pc lines p = .ok ((code, pcs), q)) :
    Assembles lines pc p code pcs q := by
  induction lines generalizing number pc p code pcs with
  | nil =>
    cases h
    refine ⟨.refl hp, rfl, rfl, ⟨.nil, by simp⟩, fun _ _ _ => rfl, ?_⟩
    intro pool bound _ _
    refine ⟨[], ?_, rfl, .nil⟩
    cases bound <;> rfl
  | cons line lines ih =>
    obtain ⟨b, r, code', pcs', hline, hrest, rfl, rfl⟩ := of_assembleFrom_cons h
    have hb := assemblesLine hp hline
    exact .cons hb (ih hb.grown.sound hrest)

end ReturnAudit.Assembly
