import ReturnAudit.Proofs.Assembly.FinishedPool
import ReturnAudit.Proofs.Assembly.OperandTexts
import ReturnAudit.Proofs.ClassFile.Decoding

/-!
# The forms of an operand

Putting an operand behind an opcode fails, gives bytes that need no constant, or asks for one
constant and gives bytes that hold its index. The opcode and the text of the operand alone decide
which, so what the operand bytes are read back as follows form by form. Assembled lines are taken
apart into such steps one after another.
-/

namespace ReturnAudit.Assembly

open ClassFile (Constant MemberRef Pool Reads readOperand)
open PoolBuilder (Files NamesMember Resolves)

/-- The member that an operand names: the kind of its constant, its parts, and the bytes behind its
index. -/
inductive MemberForm (op : Opcode) (operand : Bytes) :
    (UInt16 → UInt16 → Constant) → (owner name descriptor padding : Bytes) → Prop
  /-- A call of a method. -/
  | call {owner name descriptor : Bytes} : op.isInvoke = true → op ≠ .invokeinterface →
      IsMethodOperand operand owner name descriptor →
      MemberForm op operand .methodRef owner name descriptor []
  /-- A call through an interface also tells how many slots the arguments take. -/
  | interfaceCall {owner name descriptor : Bytes} : op = .invokeinterface →
      IsMethodOperand operand owner name descriptor →
      MemberForm op operand .interfaceMethodRef owner name descriptor
        [(1 + Descriptor.argumentSlots descriptor).toUInt8, 0]
  /-- An access to a field. -/
  | field {owner name descriptor : Bytes} : op.isInvoke = false → op.operands = .member 0 →
      IsFieldOperand operand owner name descriptor →
      MemberForm op operand .fieldRef owner name descriptor []

/-- An operand that needs a constant: the request for it, the key that it is filed under, and the
operand bytes for its index. -/
inductive IndexForm (op : Opcode) (operand : Bytes) :
    StateM PoolBuilder UInt16 → Key → (UInt16 → Bytes) → Prop
  | member {make : UInt16 → UInt16 → Constant} {owner name descriptor padding : Bytes} :
      MemberForm op operand make owner name descriptor padding →
      IndexForm op operand (PoolBuilder.member make owner name descriptor)
        (.member (make 0 0).tag (Descriptor.slashed owner ++ "." ++ name ++ ":" ++ descriptor))
        fun i => beShort i.toNat ++ padding
  | classRef {padding : Nat} : op.operands = .classRef padding → operand ≠ [] →
      IndexForm op operand (PoolBuilder.classRef operand) (.classRef (Descriptor.slashed operand))
        fun i => beShort i.toNat ++ List.replicate padding 1
  | string {text : Bytes} : op = .ldc → Quoted.read? operand = some text →
      IndexForm op operand (PoolBuilder.string text) (.string text) fun i => [i.toUInt8]
  | integer {v : Int} : op = .ldc → Quoted.read? operand = none →
      Numeral.readInt 10 32 operand = .ok v →
      IndexForm op operand (PoolBuilder.integer v) (.integer v) fun i => [i.toUInt8]

/-- An operand that needs no constant: its bytes, and the number that is read back from them. -/
inductive PlainForm (op : Opcode) (operand : Bytes) : Bytes → Int → Prop
  | empty : op.operands = .none → operand = [] → PlainForm op operand [] 0
  | byte {n : Int} : op.operands = .byte → op ≠ .ldc → Numeral.readInt 10 64 operand = .ok n →
      PlainForm op operand [lowByte n] (lowByte n).toNat
  | signedByte {n : Int} : op.operands = .signedByte → Numeral.readInt 10 64 operand = .ok n →
      PlainForm op operand [lowByte n] (lowByte n).toInt8.toInt
  | short {n : Int} : op.operands = .short → Numeral.readInt 10 64 operand = .ok n →
      PlainForm op operand (lowShort n) (BitVec.ofInt 16 n).toNat.toUInt16.toNat
  | signedShort {n : Int} : op.operands = .signedShort → Numeral.readInt 10 64 operand = .ok n →
      PlainForm op operand (lowShort n) (BitVec.ofInt 16 n).toNat.toUInt16.toInt16.toInt
  | signedWord {n : Int} : op.operands = .signedWord → Numeral.readInt 10 64 operand = .ok n →
      PlainForm op operand (lowWord n) (BitVec.ofInt 32 n).toNat.toUInt32.toInt32.toInt
  | increment {index delta : Int} : op.operands = .localIncrement →
      readIncrement operand = .ok (index, delta) →
      PlainForm op operand [lowByte index, lowByte delta] (lowByte index).toNat

/-- The steps that an operand can come to. -/
inductive OperandStep (op : Opcode) (operand : Bytes) : Assembler Bytes → Prop
  | fault (fault : LineFault) : OperandStep op operand (throw fault)
  | plain {b : Bytes} {v : Int} : PlainForm op operand b v → OperandStep op operand (pure b)
  | index {request : StateM PoolBuilder UInt16} {key : Key} {f : UInt16 → Bytes} :
      IndexForm op operand request key f →
      OperandStep op operand (do let i ← pooled request; pure (f i))

section

variable {op : Opcode} {operand : Bytes}

/-- A step after a part that may fail but touches no pool. -/
theorem OperandStep.lift {α : Type} {part : Except LineFault α} {f : α → Assembler Bytes}
    (h : ∀ a, part = .ok a → OperandStep op operand (f a)) :
    OperandStep op operand (do let a ← part; f a) := by
  cases part with
  | error e => exact .fault e
  | ok a => exact h a rfl

/-- A step that reads a number and writes it. -/
private theorem operandStep_number {mnemonic : Bytes} {bytes : Int → Bytes} {value : Int → Int}
    (h : ∀ n, Numeral.readInt 10 64 operand = .ok n →
      PlainForm op operand (bytes n) (value n)) :
    OperandStep op operand (do let n ← number mnemonic operand; pure (bytes n)) :=
  .lift fun n hn => .plain (h n (of_mapError hn))

end

/-- Putting an operand behind an opcode comes to one of the forms. -/
theorem operandStep (op : Opcode) (mnemonic operand : Bytes) :
    OperandStep op operand (assembleOperand op mnemonic operand) := by
  unfold assembleOperand
  cases hinvoke : op.isInvoke with
  | true =>
    refine .lift ?_
    rintro ⟨owner, name, descriptor⟩ hsplit
    have hoperand := splitMethod_eq_ok_iff.mp hsplit
    by_cases hinterface : op = .invokeinterface
    · simp only [if_pos hinterface]
      exact .index (.member (.interfaceCall hinterface hoperand))
    · simp only [if_neg hinterface]
      exact .index (.member (.call hinvoke hinterface hoperand))
  | false =>
    rw [if_neg Bool.false_ne_true]
    by_cases hldc : op = .ldc
    · rw [if_pos hldc]
      cases hquoted : Quoted.read? operand with
      | some text => exact .index (.string hldc hquoted)
      | none => exact .lift fun v hv => .index (.integer hldc hquoted (of_mapError hv))
    rw [if_neg hldc]
    cases hop : op.operands with
    | member padding =>
      cases padding with
      | zero =>
        refine .lift ?_
        rintro ⟨owner, name, descriptor⟩ hsplit
        exact .index (.member (.field hinvoke hop (splitField_eq_ok_iff.mp hsplit)))
      | succ padding => exact .fault _
    | classRef padding =>
      cases operand with
      | nil => exact .fault _
      | cons x operand => exact .index (.classRef hop (List.cons_ne_nil x operand))
    | none =>
      cases operand with
      | nil => exact .plain (.empty hop rfl)
      | cons x operand => exact .fault _
    | localIncrement =>
      refine .lift ?_
      rintro ⟨index, delta⟩ hread
      exact .plain (.increment hop (of_mapError hread))
    | byte => exact operandStep_number fun n hn => .byte hop hldc hn
    | signedByte => exact operandStep_number fun n hn => .signedByte hop hn
    | short => exact operandStep_number fun n hn => .short hop hn
    | signedShort => exact operandStep_number fun n hn => .signedShort hop hn
    | signedWord => exact operandStep_number fun n hn => .signedWord hop hn
    | tableSwitch | lookupSwitch | wide | undefined => exact .fault _

section

variable {op : Opcode} {operand : Bytes}

/-- A step that succeeds writes bytes that need no constant, or the index of one that it asked
for. -/
theorem OperandStep.of_run {step : Assembler Bytes} (h : OperandStep op operand step)
    {p q : PoolBuilder} {b : Bytes} (hrun : step p = .ok (b, q)) :
    (∃ v, PlainForm op operand b v ∧ q = p) ∨
      ∃ request key f i, IndexForm op operand request key f ∧ request p = (i, q) ∧ b = f i := by
  cases h with
  | fault fault => cases hrun
  | plain hform =>
    obtain ⟨rfl, rfl⟩ := of_run_pure hrun
    exact .inl ⟨_, hform, rfl⟩
  | @index request key f hform =>
    obtain ⟨i, r, hr, hpure⟩ := of_run_bind hrun
    obtain ⟨rfl, rfl⟩ := of_run_pure hpure
    exact .inr ⟨request, key, f, i, hform, Except.ok.inj hr, rfl⟩

section

variable {make : UInt16 → UInt16 → Constant} {owner name descriptor padding : Bytes}

/-- The constant of such an operand is one that names members. -/
theorem MemberForm.namesMember (h : MemberForm op operand make owner name descriptor padding) :
    NamesMember make := by
  cases h with
  | call => exact .inr (.inl rfl)
  | interfaceCall => exact .inr (.inr rfl)
  | field => exact .inl rfl

/-- An opcode that names a member takes its index and the bytes behind it. -/
theorem MemberForm.operands_eq (h : MemberForm op operand make owner name descriptor padding) :
    op.operands = .member padding.length := by
  cases h with
  | call hinvoke hne =>
    simp only [Opcode.isInvoke, Bool.or_eq_true, decide_eq_true_eq, hne, or_false] at hinvoke
    rcases hinvoke with (rfl | rfl) | rfl <;> rfl
  | interfaceCall hop =>
    subst hop
    rfl
  | field _ hoperands => exact hoperands

/-- The line refers to the member that its operand names. -/
theorem MemberForm.refersTo {line : Bytes}
    (h : MemberForm op (splitLine line).2 make owner name descriptor padding)
    (hop : Opcode.ofMnemonic? (splitLine line).1 = some op) :
    RefersTo line ⟨Descriptor.slashed owner, name, descriptor, (make 0 0).tag = 11⟩ := by
  cases h with
  | call hinvoke hne hoperand =>
    have hr := RefersTo.call hop hinvoke hoperand
    rw [decide_eq_false hne] at hr
    exact hr
  | interfaceCall hinterface hoperand =>
    subst hinterface
    exact .call hop rfl hoperand
  | field hinvoke hoperands hoperand => exact .field hop hinvoke hoperands hoperand

end

/-- An opcode that takes no constant names neither a member nor a class. -/
theorem PlainForm.no_constant {b : Bytes} {v : Int} (h : PlainForm op operand b v) :
    op.hasMemberOperand = false ∧ op.hasClassOperand = false := by
  cases h <;> simp only [Opcode.hasMemberOperand, Opcode.hasClassOperand, *, and_self]

/-- Bytes that need no constant are read back as their number with any pool and with none. -/
theorem PlainForm.reads {b : Bytes} {v : Int} (h : PlainForm op operand b v) (pool : Option Pool)
    (pc o : Nat) : Reads o (readOperand pool op pc) b ⟨v, none, none⟩ := by
  unfold readOperand
  cases h with
  | empty hop =>
    rw [hop]
    exact Reads.pure _
  | byte hop | signedByte hop =>
    rw [hop]
    exact (Reads.u1 _).bind_pure
  | short hop | signedShort hop =>
    rw [hop]
    exact (Reads.u2 _).bind_pure
  | signedWord hop =>
    rw [hop]
    exact (Reads.u4 _).bind_pure.bind_pure
  | @increment index delta hop =>
    rw [hop]
    exact (Reads.u1 (lowByte index)).bind (Reads.u1 (lowByte delta)).bind_pure

/-- The index of a member is read back with what is found there. -/
theorem reads_memberIndex {pool : Option Pool} {padding : Bytes} {i : UInt16}
    {member : Option MemberRef} (hop : op.operands = .member padding.length)
    (hmember : ∀ o, Reads o (ClassFile.resolved pool (·.member i)) [] member) (pc o : Nat) :
    Reads o (readOperand pool op pc) (beShort i.toNat ++ padding) ⟨i.toNat, member, none⟩ := by
  simp only [readOperand, hop]
  exact (Reads.u2_toNat i).bind ((Reads.skip padding).bind_last (hmember _).bind_pure)

/-- The index of a class is read back with what is found there. -/
theorem reads_classIndex {pool : Option Pool} {padding : Bytes} {i : UInt16}
    {name : Option Bytes} (hop : op.operands = .classRef padding.length)
    (hname : ∀ o, Reads o (ClassFile.resolved pool (·.className i)) [] name) (pc o : Nat) :
    Reads o (readOperand pool op pc) (beShort i.toNat ++ padding) ⟨i.toNat, none, name⟩ := by
  simp only [readOperand, hop]
  exact (Reads.u2_toNat i).bind ((Reads.skip padding).bind_last (hname _).bind_pure)

section

variable {request : StateM PoolBuilder UInt16} {key : Key} {f : UInt16 → Bytes}

/-- The request of such an operand files the key of its constant. -/
theorem IndexForm.files (h : IndexForm op operand request key f) : Files request key := by
  cases h with
  | member hform => exact PoolBuilder.files_member hform.namesMember _ _ _
  | classRef => exact PoolBuilder.files_classRef operand
  | string => exact PoolBuilder.files_string _
  | integer => exact PoolBuilder.files_integer _

/-- A look-up that succeeds in the pool, if there is one. -/
private theorem reads_resolved {α : Type} {pool : Option Pool}
    {lookup : Pool → Except ClassFile.ReadError α} (h : ∀ cp ∈ pool, ∃ a, lookup cp = .ok a) :
    ∃ v, ∀ o, Reads o (ClassFile.resolved pool lookup) [] v := by
  cases pool with
  | none => exact ⟨none, fun o => Reads.pure none⟩
  | some cp =>
    obtain ⟨a, ha⟩ := h cp rfl
    exact ⟨some a, fun o => (Reads.look ha).map some⟩

/-- The index of a constant is read back without a pool, and with one that resolves it. -/
theorem IndexForm.reads (h : IndexForm op operand request key f) {pool : Option Pool} {i : UInt16}
    (hpool : ∀ cp ∈ pool, ∃ q, Resolves cp q ∧ q.Has key i) (pc : Nat) :
    ∃ v, ∀ o, Reads o (readOperand pool op pc) (f i) v := by
  cases h with
  | member hform =>
    have hlookup : ∀ cp ∈ pool, ∃ m, cp.member i = .ok m := by
      intro cp hcp
      obtain ⟨q, hresolves, hi⟩ := hpool cp hcp
      obtain ⟨owner, name, descriptor, -, hfound⟩ := hresolves.member hi
      exact ⟨_, hfound⟩
    obtain ⟨member, hmember⟩ := reads_resolved hlookup
    exact ⟨_, reads_memberIndex hform.operands_eq hmember pc⟩
  | @classRef padding hop =>
    have hlookup : ∀ cp ∈ pool, ∃ n, cp.className i = .ok n := by
      intro cp hcp
      obtain ⟨q, hresolves, hi⟩ := hpool cp hcp
      exact ⟨_, hresolves.className hi⟩
    obtain ⟨name, hname⟩ := reads_resolved hlookup
    rw [← List.length_replicate (n := padding) (a := (1 : UInt8))] at hop
    exact ⟨_, reads_classIndex hop hname pc⟩
  | string hop | integer hop =>
    subst hop
    exact ⟨_, fun o => (Reads.u1 i.toUInt8).bind_pure⟩

end

end

/-- The bytes of a line are its opcode and its operand bytes. -/
theorem of_assembleLine {line b : Bytes} {p q : PoolBuilder}
    (h : assembleLine line p = .ok (b, q)) :
    ∃ op b', Opcode.ofMnemonic? (splitLine line).1 = some op ∧ b = op.code :: b' ∧
      assembleOperand op (splitLine line).1 (splitLine line).2 p = .ok (b', q) := by
  unfold assembleLine at h
  cases hop : Opcode.ofMnemonic? (splitLine line).1 with
  | none =>
    simp only [hop] at h
    cases h
  | some op =>
    simp only [hop] at h
    obtain ⟨b', r, hr, hpure⟩ := of_run_bind h
    obtain ⟨rfl, rfl⟩ := of_run_pure hpure
    exact ⟨op, b', rfl, rfl, hr⟩

/-- Assembled lines are the first one and what follows it. -/
theorem of_assembleFrom_cons {line : Bytes} {lines : List Bytes} {number pc : Nat}
    {p q : PoolBuilder} {code : Bytes} {pcs : List Nat}
    (h : assembleFrom number pc (line :: lines) p = .ok ((code, pcs), q)) :
    ∃ b r code' pcs', assembleLine line p = .ok (b, r) ∧
      assembleFrom (number + 1) (pc + b.length) lines r = .ok ((code', pcs'), q) ∧
        code = b ++ code' ∧ pcs = pc :: pcs' := by
  simp only [assembleFrom] at h
  cases hline : assembleLine line p with
  | error fault =>
    rw [hline] at h
    cases h
  | ok first =>
    obtain ⟨b, r⟩ := first
    simp only [hline] at h
    obtain ⟨⟨⟨code', pcs'⟩, t⟩, hrest, hpure⟩ := of_bind h
    cases hpure
    exact ⟨b, r, code', pcs', rfl, hrest, rfl, rfl⟩

end ReturnAudit.Assembly
