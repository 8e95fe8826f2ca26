import ReturnAudit.Proofs.ClassFile.Decoding
import ReturnAudit.Proofs.ClassFile.OpcodeMembers

/-!
# How long instructions are

The length of an instruction can be told from the bytes at its position without reading its
operands: from its opcode alone, or from the few bytes that give the size of a switch or the opcode
behind a wide prefix. Decoded instructions have these lengths, so they cover a code array from its
first byte to its last, one behind the other.
-/

namespace ReturnAudit.ClassFile

variable {α : Type} {pool : Option Pool}

/-- The lengths of the instructions in the order of their codes. There is a zero for the two
switches and the wide prefix, whose opcode does not decide the length. -/
def fixedLengths : List Nat := [
  1, 1, 1, 1, 1, 1, 1, 1, 1, 1, 1, 1, 1, 1, 1, 1,
  2, 3, 2, 3, 3, 2, 2, 2, 2, 2, 1, 1, 1, 1, 1, 1,
  1, 1, 1, 1, 1, 1, 1, 1, 1, 1, 1, 1, 1, 1, 1, 1,
  1, 1, 1, 1, 1, 1, 2, 2, 2, 2, 2, 1, 1, 1, 1, 1,
  1, 1, 1, 1, 1, 1, 1, 1, 1, 1, 1, 1, 1, 1, 1, 1,
  1, 1, 1, 1, 1, 1, 1, 1, 1, 1, 1, 1, 1, 1, 1, 1,
  1, 1, 1, 1, 1, 1, 1, 1, 1, 1, 1, 1, 1, 1, 1, 1,
  1, 1, 1, 1, 1, 1, 1, 1, 1, 1, 1, 1, 1, 1, 1, 1,
  1, 1, 1, 1, 3, 1, 1, 1, 1, 1, 1, 1, 1, 1, 1, 1,
  1, 1, 1, 1, 1, 1, 1, 1, 1, 3, 3, 3, 3, 3, 3, 3,
  3, 3, 3, 3, 3, 3, 3, 3, 3, 2, 0, 0, 1, 1, 1, 1,
  1, 1, 3, 3, 3, 3, 3, 3, 3, 5, 5, 3, 2, 3, 1, 1,
  3, 3, 1, 1, 0, 4, 3, 3, 5, 5]

/-- The number in four bytes, the highest first, in two's complement. -/
def signedWordAt (code : Bytes) (i : Nat) : Option Int := do
  let a ← code[i]?
  let b ← code[i + 1]?
  let c ← code[i + 2]?
  let d ← code[i + 3]?
  pure (Int.bmod (((a.toNat * 256 + b.toNat) * 256 + c.toNat) * 256 + d.toNat : Nat) (2 ^ 32))

/-- From each position on a multiple of four comes after some bytes. -/
theorem exists_aligned (pc : Nat) : ∃ k, 4 ∣ pc + 1 + k :=
  ⟨3 - pc % 4, by omega⟩

/-- The least number of bytes behind the opcode at `pc` that lead to a multiple of four. -/
def alignment (pc : Nat) : Nat :=
  Nat.find (exists_aligned pc)

/-- A switch over a range: a default offset, two bounds and an offset for each value. -/
def tableSwitchLength (code : Bytes) (pc : Nat) : Option Int := do
  let low ← signedWordAt code (pc + 1 + alignment pc + 4)
  let high ← signedWordAt code (pc + 1 + alignment pc + 8)
  pure (1 + alignment pc + 12 + 4 * (high - low + 1))

/-- A switch over listed values: a default offset, a count and so many pairs. -/
def lookupSwitchLength (code : Bytes) (pc : Nat) : Option Int := do
  let pairs ← signedWordAt code (pc + 1 + alignment pc + 4)
  pure (1 + alignment pc + 8 + 8 * pairs)

/-- A widened increment is longer than the other widened instructions. -/
def wideLength (code : Bytes) (pc : Nat) : Option Int := do
  let inner ← code[pc + 1]?
  pure (if inner = 0x84 then 6 else 4)

/-- The length of the instruction at a position. -/
def lengthAt (code : Bytes) (pc : Nat) : Option Int := do
  let op ← code[pc]?
  let length ← fixedLengths[op.toNat]?
  if length ≠ 0 then pure length
  else if op = 0xaa then tableSwitchLength code pc
  else if op = 0xab then lookupSwitchLength code pc
  else wideLength code pc

/-- The bytes up to this multiple are the padding of a switch. -/
theorem alignment_eq_switchPadding (pc : Nat) : alignment pc = switchPadding pc := by
  have haligned : 4 ∣ pc + 1 + switchPadding pc := by
    unfold switchPadding
    omega
  refine (Nat.find_eq_iff (exists_aligned pc)).mpr ⟨haligned, ?_⟩
  intro k hk
  unfold switchPadding at hk
  omega

/-- The place in a code array behind so many bytes. -/
def cursorAt (code : Bytes) (i : Nat) : Cursor := ⟨i, code.drop i⟩

/-- A frugal reader goes from place to place in a code array. -/
theorem Frugal.eq_cursorAt {r : Reader α} (hr : Frugal r) {code : Bytes} {i : Nat} {v : α}
    {c : Cursor} (h : r (cursorAt code i) = .ok (v, c)) : c = cursorAt code c.offset := by
  obtain ⟨b, htext, hb⟩ := hr i (code.drop i) v c h
  rw [cursorAt, htext] at h
  have hc := (hb.cursor_eq h).2
  have hrest : c.rest = code.drop (i + b.length) := by
    rw [← List.drop_drop, htext, List.drop_left]
  rw [hc, cursorAt, hrest]

/-- Four bytes make up a number in two's complement. -/
theorem u4_cons (o : Nat) (a b c d : UInt8) (rest : Bytes) :
    Reader.u4 ⟨o, a :: b :: c :: d :: rest⟩ =
      .ok ((((a.toNat * 256 + b.toNat) * 256 + c.toNat) * 256 + d.toNat).toUInt32,
        ⟨o + 4, rest⟩) := by
  have ha := a.toNat_lt
  have hb := b.toNat_lt
  have hc := c.toNat_lt
  have hd := d.toNat_lt
  have hbyte : ∀ (x : UInt8) (n : Nat), n % 256 = x.toNat → n.toUInt8 = x := by
    intro x n hn
    refine UInt8.toNat_inj.mp ?_
    rw [Nat.toUInt8, UInt8.toNat_ofNat', ← hn]
  have hword : Assembly.beWord (((a.toNat * 256 + b.toNat) * 256 + c.toNat) * 256 + d.toNat) =
      [a, b, c, d] := by
    simp only [Assembly.beWord, Assembly.beShort, List.cons_append, List.nil_append]
    rw [hbyte a _ (by omega), hbyte b _ (by omega), hbyte c _ (by omega), hbyte d _ (by omega)]
  have hreads := Reads.u4 (o := o)
    (((a.toNat * 256 + b.toNat) * 256 + c.toNat) * 256 + d.toNat) rest
  rw [hword] at hreads
  exact hreads

/-- A word with its sign is what its number leaves modulo its range. -/
theorem toInt_toInt32_toUInt32 (n : Nat) :
    n.toUInt32.toInt32.toInt = Int.bmod n (2 ^ 32) :=
  BitVec.toInt_ofNat n

section

variable {code : Bytes} {i : Nat} {c : Cursor}

/-- A byte stands at the place where it was read. -/
theorem of_u1_cursorAt {v : UInt8} (h : Reader.u1 (cursorAt code i) = .ok (v, c)) :
    code[i]? = some v ∧ c = cursorAt code (i + 1) := by
  have hplace := Frugal.u1.eq_cursorAt h
  have hget : code[i]? = (code.drop i)[0]? := by rw [List.getElem?_drop, Nat.add_zero]
  rw [cursorAt] at h
  match hdrop : code.drop i, h with
  | x :: rest, h =>
    rw [hget, hdrop]
    cases h
    exact ⟨rfl, hplace⟩

/-- Reading a short leads two bytes further. -/
theorem of_u2_cursorAt {v : UInt16} (h : Reader.u2 (cursorAt code i) = .ok (v, c)) :
    c = cursorAt code (i + 2) := by
  have hplace := Frugal.u2.eq_cursorAt h
  rw [cursorAt] at h
  match hdrop : code.drop i, h with
  | x :: y :: rest, h =>
    cases h
    exact hplace

/-- Skipping bytes leads behind them. -/
theorem of_skip_cursorAt {n : Nat} {v : Unit} (h : Reader.skip n (cursorAt code i) = .ok (v, c)) :
    c = cursorAt code (i + n) := by
  have hplace := (Frugal.skip n).eq_cursorAt h
  unfold Reader.skip at h
  split at h
  · cases h
    exact hplace
  · cases h

/-- A number stands at the place where it was read. -/
theorem of_s4_cursorAt {v : Int} (h : Reader.s4 (cursorAt code i) = .ok (v, c)) :
    signedWordAt code i = some v ∧ c = cursorAt code (i + 4) := by
  have hplace := Plain.s4.frugal.eq_cursorAt h
  have hget : ∀ k, code[i + k]? = (code.drop i)[k]? := fun k => List.getElem?_drop.symm
  obtain ⟨w, t, hw, hpure⟩ := of_run_bind h
  rw [cursorAt] at hw
  match hdrop : code.drop i, hw with
  | a :: b :: d :: e :: rest, hw =>
    rw [u4_cons] at hw
    cases hw
    cases hpure
    refine ⟨?_, hplace⟩
    rw [signedWordAt, ← Nat.add_zero i]
    simp only [Nat.add_assoc, Nat.zero_add, hget, hdrop, toInt_toInt32_toUInt32]
    rfl

/-- Looking an index up leads nowhere. -/
theorem of_resolved_cursorAt {lookup : Pool → Except ReadError α} {v : Option α}
    (h : resolved pool lookup (cursorAt code i) = .ok (v, c)) : c = cursorAt code i := by
  cases pool with
  | none => exact (of_run_pure h).2
  | some pool =>
    unfold resolved at h
    cases hlookup : lookup pool with
    | error e =>
      simp only [hlookup] at h
      cases h
    | ok a =>
      simp only [hlookup] at h
      cases h
      rfl

end

/-- The length that goes with each shape of operand bytes, with zeros as in the table. -/
def shapeLength : Opcode.Operands → Nat
  | .none => 1
  | .byte | .signedByte => 2
  | .short | .signedShort | .localIncrement => 3
  | .signedWord => 5
  | .member padding | .classRef padding => 3 + padding
  | .tableSwitch | .lookupSwitch | .wide | .undefined => 0

/-- The table of lengths agrees with the shapes of all opcodes. -/
theorem fixedLengths_eq : ∀ op : Opcode, fixedLengths[op.code.toNat]? =
    if op.operands = .undefined then none else some (shapeLength op.operands) :=
  Opcode.forall_of_codes (by decide +kernel)

/-- The opcodes whose length depends on more than the opcode. -/
theorem operands_variable_iff : ∀ op : Opcode,
    (op.operands = .tableSwitch ↔ op = ⟨0xaa⟩) ∧ (op.operands = .lookupSwitch ↔ op = ⟨0xab⟩) ∧
      (op.operands = .wide ↔ op = ⟨0xc4⟩) :=
  Opcode.forall_of_codes (by decide +kernel)

section

variable {code : Bytes} {pc : Nat} {op : Opcode} {v : Operand} {c : Cursor}

/-- The length of an instruction whose opcode decides it. -/
theorem lengthAt_of_fixed (hop : code[pc]? = some op.code) (hshape : op.operands ≠ .undefined)
    (hfixed : shapeLength op.operands ≠ 0) :
    lengthAt code pc = some (shapeLength op.operands : Int) := by
  simp only [lengthAt, hop, bind, Option.bind, fixedLengths_eq, hshape, hfixed, ne_eq,
    not_false_eq_true, if_true, if_false]
  rfl

/-- The index of an entry takes two bytes and its padding, and looking the entry up takes none. -/
private theorem place_of_index {i padding : Nat} {lookup : UInt16 → Pool → Except ReadError α}
    {value : UInt16 → Option α → Operand}
    (h : (do
      let index ← Reader.u2
      Reader.skip padding
      let found ← resolved pool (lookup index)
      pure (value index found) : Reader Operand) (cursorAt code i) = .ok (v, c)) :
    c = cursorAt code (i + 2 + padding) := by
  obtain ⟨_, _, hindex, h⟩ := of_run_bind h
  obtain rfl := of_u2_cursorAt hindex
  obtain ⟨_, _, hskip, h⟩ := of_run_bind h
  obtain rfl := of_skip_cursorAt hskip
  obtain ⟨_, _, hresolved, hpure⟩ := of_run_bind h
  obtain rfl := of_resolved_cursorAt hresolved
  exact (of_run_pure hpure).2

/-- A value that is read and kept leads to the place behind it. -/
private theorem place_of_value {i j : Nat} {read : Reader α} {value : α → Operand}
    (hplace : ∀ {w : α} {c' : Cursor}, read (cursorAt code i) = .ok (w, c') → c' = cursorAt code j)
    (h : (do
      let w ← read
      pure (value w) : Reader Operand) (cursorAt code i) = .ok (v, c)) :
    c = cursorAt code j := by
  obtain ⟨_, _, hread, hpure⟩ := of_run_bind h
  rw [(of_run_pure hpure).2]
  exact hplace hread

/-- Operands of a fixed size lead to the place behind the instruction. -/
theorem place_of_readOperand (hfixed : shapeLength op.operands ≠ 0)
    (h : readOperand pool op pc (cursorAt code (pc + 1)) = .ok (v, c)) :
    c = cursorAt code (pc + shapeLength op.operands) := by
  unfold readOperand at h
  cases hshape : op.operands with
  | none =>
    simp only [hshape] at h
    exact (of_run_pure h).2
  | byte | signedByte =>
    simp only [hshape] at h
    exact place_of_value (fun hread => (of_u1_cursorAt hread).2) h
  | short | signedShort =>
    simp only [hshape] at h
    exact place_of_value of_u2_cursorAt h
  | signedWord =>
    simp only [hshape] at h
    exact place_of_value (fun hread => (of_s4_cursorAt hread).2) h
  | localIncrement =>
    simp only [hshape] at h
    obtain ⟨_, _, hindex, h⟩ := of_run_bind h
    obtain ⟨-, rfl⟩ := of_u1_cursorAt hindex
    obtain ⟨_, _, hdelta, hpure⟩ := of_run_bind h
    obtain ⟨-, rfl⟩ := of_u1_cursorAt hdelta
    exact (of_run_pure hpure).2
  | member padding =>
    simp only [hshape] at h
    rw [place_of_index h, shapeLength, Nat.add_assoc pc 1 2, Nat.add_assoc pc 3]
  | classRef padding =>
    simp only [hshape] at h
    rw [place_of_index h, shapeLength, Nat.add_assoc pc 1 2, Nat.add_assoc pc 3]
  | tableSwitch | lookupSwitch | wide | undefined => exact absurd (by rw [hshape]; rfl) hfixed

/-- The operands of a switch over a range take the bytes that its bounds ask for. -/
theorem place_of_tableSwitch
    (h : readOperand pool ⟨0xaa⟩ pc (cursorAt code (pc + 1)) = .ok (v, c)) :
    ∃ n : Nat, c = cursorAt code (pc + n) ∧ tableSwitchLength code pc = some (n : Int) := by
  obtain ⟨_, _, hskip, h⟩ := of_run_bind h
  obtain rfl := of_skip_cursorAt hskip
  obtain ⟨_, _, hdefault, h⟩ := of_run_bind h
  obtain ⟨-, rfl⟩ := of_s4_cursorAt hdefault
  obtain ⟨low, _, hread, h⟩ := of_run_bind h
  obtain ⟨hlow, rfl⟩ := of_s4_cursorAt hread
  obtain ⟨high, _, hread, h⟩ := of_run_bind h
  obtain ⟨hhigh, rfl⟩ := of_s4_cursorAt hread
  dsimp only at h
  split at h
  · obtain ⟨_, _, hfail, _⟩ := of_run_bind h
    cases hfail
  · rename_i hbounds
    obtain ⟨_, _, hskip, hpure⟩ := of_run_bind h
    obtain rfl := of_skip_cursorAt hskip
    refine ⟨1 + switchPadding pc + 12 + (high - low + 1).toNat * 4, ?_, ?_⟩
    · rw [(of_run_pure hpure).2]
      congr 1
      omega
    · rw [tableSwitchLength, alignment_eq_switchPadding, hlow]
      have hplace : pc + 1 + switchPadding pc + 8 = pc + 1 + switchPadding pc + 4 + 4 := by omega
      rw [hplace, hhigh]
      change some _ = some _
      congr 1
      omega

/-- The operands of a switch over listed values take the bytes that its count asks for. -/
theorem place_of_lookupSwitch
    (h : readOperand pool ⟨0xab⟩ pc (cursorAt code (pc + 1)) = .ok (v, c)) :
    ∃ n : Nat, c = cursorAt code (pc + n) ∧ lookupSwitchLength code pc = some (n : Int) := by
  obtain ⟨_, _, hskip, h⟩ := of_run_bind h
  obtain rfl := of_skip_cursorAt hskip
  obtain ⟨_, _, hdefault, h⟩ := of_run_bind h
  obtain ⟨-, rfl⟩ := of_s4_cursorAt hdefault
  obtain ⟨pairs, _, hread, h⟩ := of_run_bind h
  obtain ⟨hpairs, rfl⟩ := of_s4_cursorAt hread
  dsimp only at h
  split at h
  · obtain ⟨_, _, hfail, _⟩ := of_run_bind h
    cases hfail
  · rename_i hcount
    obtain ⟨_, _, hskip, hpure⟩ := of_run_bind h
    obtain rfl := of_skip_cursorAt hskip
    refine ⟨1 + switchPadding pc + 8 + pairs.toNat * 8, ?_, ?_⟩
    · rw [(of_run_pure hpure).2]
      congr 1
      omega
    · rw [lookupSwitchLength, alignment_eq_switchPadding, hpairs]
      change some _ = some _
      congr 1
      omega

/-- The operands behind a wide prefix take three bytes, and two more for an increment. -/
theorem place_of_wide
    (h : readOperand pool ⟨0xc4⟩ pc (cursorAt code (pc + 1)) = .ok (v, c)) :
    ∃ n : Nat, c = cursorAt code (pc + n) ∧ wideLength code pc = some (n : Int) := by
  obtain ⟨inner, _, hread, h⟩ := of_run_bind h
  obtain ⟨hinner, rfl⟩ := of_u1_cursorAt hread
  obtain ⟨_, _, hindex, h⟩ := of_run_bind h
  obtain rfl := of_u2_cursorAt hindex
  dsimp only at h
  split at h
  · rename_i hiinc
    obtain ⟨_, _, hskip, hpure⟩ := of_run_bind h
    obtain rfl := of_skip_cursorAt hskip
    refine ⟨6, (of_run_pure hpure).2, ?_⟩
    obtain rfl : inner = 0x84 := congrArg Opcode.code hiinc
    rw [wideLength, hinner]
    rfl
  · rename_i hiinc
    have hne : inner ≠ 0x84 := fun heq => hiinc (congrArg Opcode.mk heq)
    split at h
    · obtain ⟨_, _, hfail, _⟩ := of_run_bind h
      cases hfail
    · refine ⟨4, (of_run_pure h).2, ?_⟩
      simp only [wideLength, hinner, bind, Option.bind, hne, if_false]
      rfl

private theorem shape_of_shapeLength_eq_zero {shape : Opcode.Operands}
    (hzero : shapeLength shape = 0) (hdefined : shape ≠ .undefined) :
    shape = .tableSwitch ∨ shape = .lookupSwitch ∨ shape = .wide := by
  cases shape <;> simp_all [shapeLength]

/-- Behind the operands there is the place to which the length of the instruction leads. -/
theorem length_of_readOperand (hop : code[pc]? = some op.code)
    (h : readOperand pool op pc (cursorAt code (pc + 1)) = .ok (v, c)) :
    ∃ n : Nat, c = cursorAt code (pc + n) ∧ lengthAt code pc = some (n : Int) := by
  by_cases hundefined : op.operands = .undefined
  · simp only [readOperand, hundefined] at h
    cases h
  by_cases hzero : shapeLength op.operands = 0
  · obtain ⟨htable, hlookup, hwide⟩ := operands_variable_iff op
    rcases shape_of_shapeLength_eq_zero hzero hundefined with hshape | hshape | hshape
    · obtain rfl := htable.mp hshape
      rw [lengthAt, hop]
      exact place_of_tableSwitch h
    · obtain rfl := hlookup.mp hshape
      rw [lengthAt, hop]
      exact place_of_lookupSwitch h
    · obtain rfl := hwide.mp hshape
      rw [lengthAt, hop]
      exact place_of_wide h
  · exact ⟨_, place_of_readOperand hzero h, lengthAt_of_fixed hop hundefined hzero⟩

end

/-- An instruction in the middle of a code array starts with its opcode and has the length that the
bytes there tell. -/
theorem lengthAt_of_reads {before b : Bytes} {insn : Instruction}
    (h : Reads before.length (readInstruction pool) b insn) (rest : Bytes) :
    insn.length = b.length ∧
    (before ++ (b ++ rest))[before.length]? = some insn.opcode.code ∧
    lengthAt (before ++ (b ++ rest)) before.length = some (insn.length : Int) := by
  obtain ⟨op, b', v, rfl, hb', rfl⟩ := of_reads_readInstruction h
  have hop : (before ++ (op.code :: b' ++ rest))[before.length]? = some op.code := by simp
  have hplace : cursorAt (before ++ (op.code :: b' ++ rest)) (before.length + 1) =
      ⟨before.length + 1, b' ++ rest⟩ := by
    rw [cursorAt, ← List.drop_drop, List.drop_left]
    rfl
  have hrun := hb' rest
  rw [← hplace] at hrun
  obtain ⟨n, hend, hlength⟩ := length_of_readOperand hop hrun
  have hn : before.length + 1 + b'.length = before.length + n := congrArg Cursor.offset hend
  obtain rfl : n = b'.length + 1 := by omega
  exact ⟨rfl, hop, hlength⟩

/-- Whether instructions cover a code array from a position on. -/
structure Tiling (code : Bytes) (start : Nat) (insns : List Instruction) : Prop where
  /-- The first instruction stands at that position. -/
  starts : ∀ insn ∈ insns.head?, insn.pc = start
  /-- Each instruction stands where the one before it ends. -/
  follows : insns.IsChain fun i j => j.pc = i.pc + i.length
  /-- No instruction is empty. -/
  length_pos : ∀ insn ∈ insns, 1 ≤ insn.length
  /-- The lengths add up to what is left of the code. -/
  covers : start + (insns.map (·.length)).sum = code.length
  /-- The opcode stands at the position of the instruction. -/
  opcode_eq : ∀ insn ∈ insns, code[insn.pc]? = some insn.opcode.code
  /-- The length is the one that the bytes at this position tell. -/
  length_eq : ∀ insn ∈ insns, lengthAt code insn.pc = some (insn.length : Int)

/-- Decoded code is covered by its instructions, whatever stands before it. -/
theorem Decodes.tiling {pc : Nat} {text : Bytes} {insns : List Instruction}
    (h : Decodes pool pc text insns) (before : Bytes) (hbefore : before.length = pc) :
    Tiling (before ++ text) pc insns := by
  induction h generalizing before with
  | nil pc => exact ⟨by simp, .nil, by simp, by simp [hbefore], by simp, by simp⟩
  | @cons pc b rest insn insns hb _ ih =>
    subst hbefore
    have htail := ih (before ++ b) (by rw [List.length_append])
    rw [List.append_assoc] at htail
    obtain ⟨hlength, hopcode, htold⟩ := lengthAt_of_reads hb rest
    have hpc := pc_of_reads hb
    have hpos := length_pos_of_reads hb
    refine ⟨?_, ?_, ?_, ?_, ?_, ?_⟩
    · rintro _ ⟨⟩
      exact hpc
    · refine List.isChain_cons.mpr ⟨?_, htail.follows⟩
      intro next hnext
      rw [htail.starts next hnext, hpc, hlength]
    · exact List.forall_mem_cons.mpr ⟨by omega, htail.length_pos⟩
    · rw [List.map_cons, List.sum_cons, hlength, ← Nat.add_assoc, htail.covers]
    · exact List.forall_mem_cons.mpr ⟨by rw [hpc]; exact hopcode, htail.opcode_eq⟩
    · exact List.forall_mem_cons.mpr ⟨by rw [hpc]; exact htold, htail.length_eq⟩

/-- Decoded instructions cover the code array without gaps, each with the length that the bytes at
its position tell. -/
theorem tiling_of_decode {code : Bytes} {insns : List Instruction}
    (h : decode pool code = .ok insns) : Tiling code 0 insns :=
  (decode_eq_ok_iff.mp h).tiling [] rfl

/-- Both switches at places where their padding differs, and both lengths of a widened
instruction. -/
def aligned : Bytes :=
  [0x04] ++
  [0xaa, 0, 0, 0, 0, 0, 23, 0xff, 0xff, 0xff, 0xff, 0, 0, 0, 0, 0, 0, 0, 23, 0, 0, 0, 23] ++
  [0xab, 0, 0, 0, 0, 0, 0, 12, 0, 0, 0, 0] ++ [0xc4, 0x84, 0, 1, 0, 1] ++ [0xc4, 0x15, 0, 1] ++
  [0xb1]

/-- The instructions of the array cover its bytes. -/
theorem tiling_aligned :
    (decode none aligned).map (·.map fun i => (i.pc, i.length)) =
      .ok [(0, 1), (1, 23), (24, 12), (36, 6), (42, 4), (46, 1)] ∧
    ∃ insns, decode none aligned = .ok insns ∧ Tiling aligned 0 insns := by
  have hpairs : (decode none aligned).map (·.map fun i => (i.pc, i.length)) =
      .ok [(0, 1), (1, 23), (24, 12), (36, 6), (42, 4), (46, 1)] := by decide +kernel
  obtain ⟨insns, hinsns, -⟩ := of_map hpairs
  exact ⟨hpairs, insns, hinsns, tiling_of_decode hinsns⟩

end ReturnAudit.ClassFile
