import ReturnAudit.ClassFile.Instruction
import ReturnAudit.Proofs.ClassFile.Extent

/-!
# Decoding piece by piece

A code array is decoded when it falls into pieces that are each read as one instruction. An
instruction takes the same bytes whatever follows, and it takes them at any other place that is
aligned alike, because only the padding of switches looks at the place.
-/

namespace ReturnAudit.ClassFile

variable {α β : Type} {pool : Option Pool}

/-- Readers that are put together from those of single values. -/
inductive Plain : {α : Type} → Reader α → Prop
  | pure {α : Type} (v : α) : Plain (Pure.pure v : Reader α)
  | fail {α : Type} (fault : Fault) : Plain (Reader.fail fault : Reader α)
  | look {α : Type} (result : Except ReadError α) : Plain (Reader.look result)
  | u1 : Plain Reader.u1
  | u2 : Plain Reader.u2
  | u4 : Plain Reader.u4
  | skip (n : Nat) : Plain (Reader.skip n)
  | bind {α β : Type} {r : Reader α} {f : α → Reader β} :
      Plain r → (∀ a, Plain (f a)) → Plain (r >>= f)

namespace Plain

/-- Plain readers are frugal. -/
theorem frugal {r : Reader α} (h : Plain r) : Frugal r := by
  induction h with
  | pure v => exact .pure v
  | fail fault => exact .fail fault
  | look result => exact .look result
  | u1 => exact .u1
  | u2 => exact .u2
  | u4 => exact .u4
  | skip n => exact .skip n
  | bind _ _ ihr ihf => exact ihr.bind ihf

/-- Where the text stands does not matter. -/
theorem run_eq_of_run {r : Reader α} (h : Plain r) {c c' : Cursor} {v : α}
    (hrun : r c = .ok (v, c')) (o : Nat) : ∃ o', r ⟨o, c.rest⟩ = .ok (v, ⟨o', c'.rest⟩) := by
  induction h generalizing c c' o with
  | pure v =>
    cases hrun
    exact ⟨o, rfl⟩
  | fail fault => cases hrun
  | look result =>
    cases result with
    | error e => cases hrun
    | ok a =>
      cases hrun
      exact ⟨o, rfl⟩
  | u1 =>
    obtain ⟨offset, text⟩ := c
    match text, hrun with
    | x :: rest, hrun =>
      cases hrun
      exact ⟨o + 1, rfl⟩
  | u2 =>
    obtain ⟨offset, text⟩ := c
    match text, hrun with
    | x :: y :: rest, hrun =>
      cases hrun
      exact ⟨o + 2, rfl⟩
  | u4 =>
    obtain ⟨offset, text⟩ := c
    match text, hrun with
    | w :: x :: y :: z :: rest, hrun =>
      cases hrun
      exact ⟨o + 4, rfl⟩
  | skip n =>
    unfold Reader.skip at hrun ⊢
    cases hsplit : Bytes.splitExactly n c.rest with
    | none =>
      rw [hsplit] at hrun
      cases hrun
    | some parts =>
      rw [hsplit] at hrun
      cases hrun
      exact ⟨o + n, rfl⟩
  | bind _ _ ihr ihf =>
    obtain ⟨a, t, hr, hf⟩ := of_run_bind hrun
    obtain ⟨o₁, hr'⟩ := ihr hr o
    obtain ⟨o₂, hf'⟩ := ihf a hf o₁
    refine ⟨o₂, ?_⟩
    simp only [Bind.bind, StateT.bind, Except.bind, hr', hf']

/-- What is taken at one place is taken at every other place. -/
theorem reads_anywhere {r : Reader α} (h : Plain r) {o : Nat} {b : Bytes} {v : α}
    (hb : Reads o r b v) (o' : Nat) : Reads o' r b v := by
  intro rest
  obtain ⟨o₁, hmoved⟩ := h.run_eq_of_run (hb rest) o'
  obtain ⟨b', htext, hb'⟩ := h.frugal o' _ _ _ hmoved
  obtain rfl : b = b' := List.append_cancel_right htext
  exact hb' rest

/-- A plain reader whose value is changed. -/
theorem map {r : Reader α} (f : α → β) (h : Plain r) : Plain (f <$> r) := by
  rw [map_eq_pure_bind]
  exact h.bind fun a => .pure (f a)

/-- A signed word. -/
theorem s4 : Plain Reader.s4 :=
  Plain.u4.bind fun _ => .pure _

end Plain

/-- Looking an index up is plain. -/
theorem plain_resolved (pool : Option Pool) (lookup : Pool → Except ReadError α) :
    Plain (resolved pool lookup) := by
  cases pool with
  | none => exact .pure none
  | some pool => exact (Plain.look _).map some

/-- Operands are read by a plain reader, whatever their shape. -/
theorem plain_readOperand (pool : Option Pool) (op : Opcode) (pc : Nat) :
    Plain (readOperand pool op pc) := by
  unfold readOperand
  cases op.operands with
  | none => exact .pure _
  | byte => exact Plain.u1.bind fun v => .pure _
  | signedByte => exact Plain.u1.bind fun v => .pure _
  | short => exact Plain.u2.bind fun v => .pure _
  | signedShort => exact Plain.u2.bind fun v => .pure _
  | signedWord => exact Plain.s4.bind fun v => .pure _
  | localIncrement => exact Plain.u1.bind fun index => Plain.u1.bind fun delta => .pure _
  | member padding =>
    exact Plain.u2.bind fun index => (Plain.skip padding).bind fun _ =>
      (plain_resolved pool _).bind fun member => .pure _
  | classRef padding =>
    exact Plain.u2.bind fun index => (Plain.skip padding).bind fun _ =>
      (plain_resolved pool _).bind fun name => .pure _
  | tableSwitch =>
    refine (Plain.skip _).bind fun _ => Plain.s4.bind fun default => ?_
    refine Plain.s4.bind fun low => Plain.s4.bind fun high => ?_
    dsimp only
    split
    · exact (Plain.fail _).bind fun _ => (Plain.skip _).bind fun _ => .pure _
    · exact (Plain.skip _).bind fun _ => .pure _
  | lookupSwitch =>
    refine (Plain.skip _).bind fun _ => Plain.s4.bind fun default => Plain.s4.bind fun pairs => ?_
    dsimp only
    split
    · exact (Plain.fail _).bind fun _ => (Plain.skip _).bind fun _ => .pure _
    · exact (Plain.skip _).bind fun _ => .pure _
  | wide =>
    refine Plain.u1.bind fun inner => Plain.u2.bind fun index => ?_
    dsimp only
    split
    · exact (Plain.skip 2).bind fun _ => .pure _
    · split
      · exact (Plain.fail _).bind fun _ => .pure _
      · exact .pure _
  | undefined => exact .fail _

/-- The padding of a switch only depends on its position within four bytes. -/
theorem switchPadding_congr {pc pc' : Nat} (h : pc' % 4 = pc % 4) :
    switchPadding pc' = switchPadding pc := by
  unfold switchPadding
  omega

/-- Only the padding of switches looks at where an instruction stands. -/
theorem readOperand_congr {pc pc' : Nat} (h : pc' % 4 = pc % 4) (op : Opcode) :
    readOperand pool op pc' = readOperand pool op pc := by
  simp only [readOperand, switchPadding_congr h]

/-- The instruction with an opcode and operand bytes of a given value. -/
def instructionAt (pc : Nat) (op : Opcode) (b : Bytes) (v : Operand) : Instruction :=
  ⟨pc, op, b.length + 1, v.number, v.member, v.classOperand⟩

/-- An instruction is read from its opcode and its operand bytes. -/
theorem reads_readInstruction {op : Opcode} {b : Bytes} {v : Operand} {o pc : Nat}
    (h : Reads o (readOperand pool op pc) b v) :
    Reads pc (readInstruction pool) (op.code :: b) (instructionAt pc op b v) := by
  intro rest
  have hmoved := (plain_readOperand pool op pc).reads_anywhere h (pc + 1)
  have hb := hmoved.within (.instruction op pc) rest
  simp only [readInstruction, Reader.u1, List.cons_append, bind, Except.bind, hb,
    List.length_cons, Nat.add_assoc, Nat.add_comm 1, Nat.add_sub_cancel_left]
  rfl

/-- A successful reading takes an opcode and operand bytes. -/
theorem of_readInstruction {pc : Nat} {text : Bytes} {insn : Instruction} {c : Cursor}
    (h : readInstruction pool ⟨pc, text⟩ = .ok (insn, c)) :
    ∃ op b v, text = (op.code :: b) ++ c.rest ∧ Reads (pc + 1) (readOperand pool op pc) b v ∧
      insn = instructionAt pc op b v := by
  unfold readInstruction at h
  obtain ⟨⟨code, c₁⟩, hcode, h⟩ := of_bind h
  obtain ⟨⟨v, c₂⟩, hoperand, hinsn⟩ := of_bind h
  cases text with
  | nil => cases hcode
  | cons x text =>
    cases hcode
    have hfrugal := (plain_readOperand pool ⟨code⟩ pc).frugal
    obtain ⟨b, rfl, hb⟩ := hfrugal _ _ _ _ (of_run_within hoperand)
    obtain ⟨-, hc₂⟩ := hb.cursor_eq (of_run_within hoperand)
    have hlength : c₂.offset - pc = b.length + 1 := by
      rw [hc₂]
      change pc + 1 + b.length - pc = b.length + 1
      omega
    cases hinsn
    refine ⟨⟨code⟩, b, v, rfl, hb, ?_⟩
    simp only [instructionAt, hlength]

/-- Instructions are read frugally. -/
theorem frugal_readInstruction (pool : Option Pool) : Frugal (readInstruction pool) := by
  intro pc text insn c h
  obtain ⟨op, b, v, htext, hb, rfl⟩ := of_readInstruction h
  exact ⟨op.code :: b, htext, reads_readInstruction hb⟩

/-- What an instruction is read from: an opcode and operand bytes. -/
theorem of_reads_readInstruction {pc : Nat} {b : Bytes} {insn : Instruction}
    (h : Reads pc (readInstruction pool) b insn) :
    ∃ op b' v, b = op.code :: b' ∧ Reads (pc + 1) (readOperand pool op pc) b' v ∧
      insn = instructionAt pc op b' v := by
  obtain ⟨op, b', v, htext, hb', hinsn⟩ := of_readInstruction (h [])
  exact ⟨op, b', v, List.append_cancel_right htext, hb', hinsn⟩

/-- The same bytes are the same instruction at any place that is aligned alike. -/
theorem Reads.move {pc : Nat} {b : Bytes} {insn : Instruction}
    (h : Reads pc (readInstruction pool) b insn) (pc' : Nat) (hpc : pc' % 4 = pc % 4) :
    Reads pc' (readInstruction pool) b { insn with pc := pc' } := by
  obtain ⟨op, b', v, rfl, hb', rfl⟩ := of_reads_readInstruction h
  rw [← readOperand_congr hpc] at hb'
  exact reads_readInstruction hb'

/-- Whether code that starts at `pc` falls into pieces that are read as the instructions of a
list. -/
inductive Decodes (pool : Option Pool) : Nat → Bytes → List Instruction → Prop
  | nil (pc : Nat) : Decodes pool pc [] []
  | cons {pc : Nat} {b rest : Bytes} {insn : Instruction} {insns : List Instruction} :
      Reads pc (readInstruction pool) b insn → Decodes pool (pc + b.length) rest insns →
        Decodes pool pc (b ++ rest) (insn :: insns)

/-- A reader takes one piece off the front of a text. -/
theorem Reads.unique {o : Nat} {r : Reader α} {b b' rest rest' : Bytes} {v v' : α}
    (h : Reads o r b v) (h' : Reads o r b' v') (htext : b ++ rest = b' ++ rest') :
    b = b' ∧ v = v' ∧ rest = rest' := by
  have heq := (h rest).symm.trans (htext ▸ h' rest')
  obtain ⟨hv, hc⟩ := Prod.mk.inj (Except.ok.inj heq)
  obtain rfl : rest = rest' := congrArg Cursor.rest hc
  exact ⟨List.append_cancel_right htext, hv, rfl⟩

/-- A reader takes the same bytes as one value. -/
theorem Reads.value_eq {o : Nat} {r : Reader α} {b : Bytes} {v v' : α} (h : Reads o r b v)
    (h' : Reads o r b v') : v = v' :=
  (h.unique h' (rfl : b ++ ([] : Bytes) = b ++ [])).2.1

/-- An instruction takes bytes. -/
theorem length_pos_of_reads {pc : Nat} {b : Bytes} {insn : Instruction}
    (h : Reads pc (readInstruction pool) b insn) : 0 < b.length := by
  obtain ⟨op, b', v, rfl, _, _⟩ := of_reads_readInstruction h
  exact Nat.succ_pos _

/-- An instruction carries the position at which it is read. -/
theorem pc_of_reads {pc : Nat} {b : Bytes} {insn : Instruction}
    (h : Reads pc (readInstruction pool) b insn) : insn.pc = pc := by
  obtain ⟨op, b', v, _, _, rfl⟩ := of_reads_readInstruction h
  rfl

/-- No bytes are decoded to no instructions and nothing else. -/
theorem decodes_nil_iff {pc : Nat} {insns : List Instruction} :
    Decodes pool pc [] insns ↔ insns = [] := by
  constructor
  · intro h
    generalize htext : ([] : Bytes) = text at h
    cases h with
    | nil => rfl
    | cons hb _ =>
      have hpos := length_pos_of_reads hb
      rw [(List.append_eq_nil_iff.mp htext.symm).1] at hpos
      exact absurd hpos (Nat.lt_irrefl 0)
  · rintro rfl
    exact .nil pc

/-- Behind an instruction there are the instructions of what follows. -/
theorem decodes_append_iff {pc : Nat} {b rest : Bytes} {insn : Instruction}
    {insns : List Instruction} (h : Reads pc (readInstruction pool) b insn) :
    Decodes pool pc (b ++ rest) insns ↔
      ∃ later, Decodes pool (pc + b.length) rest later ∧ insns = insn :: later := by
  constructor
  · intro hall
    generalize htext : b ++ rest = text at hall
    cases hall with
    | nil =>
      have hpos := length_pos_of_reads h
      rw [(List.append_eq_nil_iff.mp htext).1] at hpos
      exact absurd hpos (Nat.lt_irrefl 0)
    | cons hb hlater =>
      obtain ⟨rfl, rfl, rfl⟩ := h.unique hb htext
      exact ⟨_, hlater, rfl⟩
  · rintro ⟨later, hlater, rfl⟩
    exact .cons h hlater

/-- Code that is not empty starts with an instruction if it can be decoded. -/
theorem Decodes.exists_reads {pc : Nat} {text : Bytes} {insns : List Instruction}
    (h : Decodes pool pc text insns) (hne : text ≠ []) :
    ∃ b insn rest, text = b ++ rest ∧ Reads pc (readInstruction pool) b insn := by
  cases h with
  | nil => exact absurd rfl hne
  | cons hb _ => exact ⟨_, _, _, rfl, hb⟩

private theorem readInstructions_nil_iff {bound pc : Nat} {insns : List Instruction} :
    (∃ c, readInstructions pool bound ⟨pc, []⟩ = .ok (insns, c)) ↔ Decodes pool pc [] insns := by
  have hnil : readInstructions pool bound ⟨pc, []⟩ = .ok ([], ⟨pc, []⟩) := by
    cases bound <;> rfl
  rw [decodes_nil_iff, hnil]
  constructor
  · rintro ⟨c, hc⟩
    cases hc
    rfl
  · rintro rfl
    exact ⟨_, rfl⟩

/-- Reading on to the end finds the pieces, if there are enough turns. -/
theorem readInstructions_eq_ok_iff {bound pc : Nat} {text : Bytes} (hbound : text.length ≤ bound)
    {insns : List Instruction} :
    (∃ c, readInstructions pool bound ⟨pc, text⟩ = .ok (insns, c)) ↔
      Decodes pool pc text insns := by
  induction bound generalizing pc text insns with
  | zero =>
    obtain rfl := List.eq_nil_of_length_eq_zero (Nat.le_zero.mp hbound)
    exact readInstructions_nil_iff
  | succ bound ih =>
    by_cases hempty : text = []
    · subst hempty
      exact readInstructions_nil_iff
    · have hgo : text.isEmpty = false := List.isEmpty_eq_false_iff.mpr hempty
      simp only [readInstructions, hgo, Bool.false_eq_true, if_false]
      constructor
      · rintro ⟨c, hc⟩
        obtain ⟨⟨insn, c₁⟩, hinsn, hc⟩ := of_bind hc
        obtain ⟨⟨later, c₂⟩, hlater, hpure⟩ := of_bind hc
        cases hpure
        obtain ⟨b, rfl, hb⟩ := frugal_readInstruction pool _ _ _ _ hinsn
        obtain ⟨-, hc₁⟩ := hb.cursor_eq hinsn
        have hpos := length_pos_of_reads hb
        rw [List.length_append] at hbound
        rw [hc₁] at hlater
        exact .cons hb ((ih (by omega)).mp ⟨_, hlater⟩)
      · intro h
        obtain ⟨b, insn, rest, rfl, hb⟩ := h.exists_reads hempty
        obtain ⟨later, hlater, rfl⟩ := (decodes_append_iff hb).mp h
        have hpos := length_pos_of_reads hb
        rw [List.length_append] at hbound
        obtain ⟨c, hc⟩ := (ih (by omega)).mpr hlater
        refine ⟨c, ?_⟩
        rw [hb rest]
        change (readInstructions pool bound ⟨pc + b.length, rest⟩ >>= _) = _
        rw [hc]
        rfl

/-- Decoding finds the pieces of a code array. -/
theorem decode_eq_ok_iff {code : Bytes} {insns : List Instruction} :
    decode pool code = .ok insns ↔ Decodes pool 0 code insns := by
  rw [← readInstructions_eq_ok_iff (le_refl code.length), decode, Reader.run, Cursor.start]
  constructor
  · intro h
    obtain ⟨⟨found, c⟩, hrun, rfl⟩ := of_map h
    exact ⟨c, hrun⟩
  · rintro ⟨c, hrun⟩
    rw [hrun]
    rfl

end ReturnAudit.ClassFile
