import ReturnAudit.Proofs.ClassFile.DecodedBodies
import ReturnAudit.Proofs.ClassFile.PoolLookups

/-!
# Decoding with and without constants

The constants of a class only add names to the instructions of a code array: where they start, what
they do, how long they are and the numbers they carry are the same without them. What they add is
what the operands lead to, and decoding fails when an operand that should lead to a member or to a
class does not.
-/

namespace ReturnAudit.ClassFile

variable {α β γ : Type} {pool : Pool} {op : Opcode}

/-- Operands without what the constants tell about them. -/
def Operand.bare (v : Operand) : Operand :=
  ⟨v.number, none, none⟩

/-- An instruction without what the constants tell about its operands. -/
def Instruction.bare (insn : Instruction) : Instruction :=
  { insn with member := none, classOperand := none }

/-- The operands of an instruction. -/
def Instruction.operands (insn : Instruction) : Operand :=
  ⟨insn.operand, insn.member, insn.classOperand⟩

/-- Whether the operands of an opcode lead to what the opcode works on. -/
structure Operand.Resolvable (pool : Pool) (op : Opcode) (v : Operand) : Prop where
  /-- A member operand leads to a member. -/
  member : op.hasMemberOperand = true →
    ∃ (index : UInt16) (m : MemberRef), v.number = index.toNat ∧ pool.MemberAt index m
  /-- A class operand leads to a class. -/
  classOperand : op.hasClassOperand = true →
    ∃ (index : UInt16) (name : Bytes), v.number = index.toNat ∧ pool.ClassAt index name

/-- Whether the operands of an opcode name what they lead to, and nothing else. -/
structure Operand.NamedBy (pool : Pool) (op : Opcode) (v : Operand) : Prop where
  /-- A member operand names the member that its number leads to. -/
  member : op.hasMemberOperand = true → ∃ (index : UInt16) (m : MemberRef),
    v.number = index.toNat ∧ pool.MemberAt index m ∧ v.member = some m
  /-- Other operands name no member. -/
  noMember : op.hasMemberOperand = false → v.member = none
  /-- A class operand names the class that its number leads to. -/
  classOperand : op.hasClassOperand = true → ∃ (index : UInt16) (name : Bytes),
    v.number = index.toNat ∧ pool.ClassAt index name ∧ v.classOperand = some name
  /-- Other operands name no class. -/
  noClass : op.hasClassOperand = false → v.classOperand = none

/-- Whether the operands of an instruction lead to what the instruction works on. -/
def Instruction.Resolvable (pool : Pool) (insn : Instruction) : Prop :=
  insn.operands.Resolvable pool insn.opcode

/-- Whether an instruction names what its operands lead to, and nothing else. -/
def Instruction.NamedBy (pool : Pool) (insn : Instruction) : Prop :=
  insn.operands.NamedBy pool insn.opcode

/-- Operands that name something lead to it. -/
theorem Operand.NamedBy.resolvable {v : Operand} (h : v.NamedBy pool op) :
    v.bare.Resolvable pool op where
  member := by
    intro hmember
    obtain ⟨index, m, hnumber, hat, -⟩ := h.member hmember
    exact ⟨index, m, hnumber, hat⟩
  classOperand := by
    intro hclass
    obtain ⟨index, name, hnumber, hat, -⟩ := h.classOperand hclass
    exact ⟨index, name, hnumber, hat⟩

/-- No opcode has both a member and a class operand. -/
theorem hasClassOperand_of_hasMemberOperand (h : op.hasMemberOperand = true) :
    op.hasClassOperand = false := by
  unfold Opcode.hasMemberOperand at h
  unfold Opcode.hasClassOperand
  cases hoperands : op.operands with
  | classRef padding => simp only [hoperands, Bool.false_eq_true] at h
  | _ => rfl

/-- Operands that lead to something can name it. -/
theorem Operand.Resolvable.exists_named {v : Operand} (h : v.Resolvable pool op) :
    ∃ w : Operand, w.bare = v.bare ∧ w.NamedBy pool op := by
  cases hmember : op.hasMemberOperand with
  | true =>
    have hclass : op.hasClassOperand = false := hasClassOperand_of_hasMemberOperand hmember
    obtain ⟨index, m, hnumber, hat⟩ := h.member hmember
    exact ⟨⟨v.number, some m, none⟩, rfl, fun _ => ⟨index, m, hnumber, hat, rfl⟩,
      fun hne => by simp [hmember] at hne, fun heq => by simp [hclass] at heq, fun _ => rfl⟩
  | false =>
    cases hclass : op.hasClassOperand with
    | true =>
      obtain ⟨index, name, hnumber, hat⟩ := h.classOperand hclass
      exact ⟨⟨v.number, none, some name⟩, rfl, fun heq => by simp [hmember] at heq, fun _ => rfl,
        fun _ => ⟨index, name, hnumber, hat, rfl⟩, fun hne => by simp [hclass] at hne⟩
    | false =>
      exact ⟨v.bare, rfl, fun heq => by simp [hmember] at heq, fun _ => rfl,
        fun heq => by simp [hclass] at heq, fun _ => rfl⟩

/-- With constants, a look-up gives what is found and reads nothing. -/
theorem resolved_eq_ok_iff {lookup : Pool → Except ReadError α} {c c' : Cursor}
    {found : Option α} :
    resolved (some pool) lookup c = .ok (found, c') ↔
      (∃ a, lookup pool = .ok a ∧ found = some a) ∧ c' = c := by
  cases hlookup : lookup pool with
  | error e =>
    have hrun : resolved (some pool) lookup c = .error e := by
      simp only [resolved, hlookup]
      rfl
    simp [hrun]
  | ok a =>
    have hrun : resolved (some pool) lookup c = .ok (some a, c) := by
      simp only [resolved, hlookup]
      rfl
    simp [hrun, eq_comm]

/-- Whether a reader gives what another one gives and adds what is right: its values are those that
have the property and that the other one gives with the addition taken away. -/
def Completes (r : Reader α) (erase : α → β) (P : α → Prop) (bare : Reader β) : Prop :=
  ∀ c v c', r c = .ok (v, c') ↔ bare c = .ok (erase v, c') ∧ P v

namespace Completes

variable {erase : α → β} {P : α → Prop} {r : Reader α} {bare : Reader β}

/-- The place that faults are told at makes no difference. -/
theorem within (place : Place) (h : Completes r erase P bare) :
    Completes (Reader.within place r) erase P (Reader.within place bare) := by
  intro c v c'
  rw [Reader.within, Reader.within, locate_eq_ok_iff, locate_eq_ok_iff]
  exact h c v c'

/-- What is read before makes no difference. -/
theorem after {f : γ → Reader α} {g : γ → Reader β} (first : Reader γ)
    (h : ∀ a, Completes (f a) erase P (g a)) :
    Completes (first >>= f) erase P (first >>= g) := by
  intro c v c'
  constructor
  · intro hrun
    obtain ⟨a, t, hfirst, hf⟩ := of_run_bind hrun
    obtain ⟨hg, hP⟩ := (h a t v c').mp hf
    exact ⟨run_bind_of_ok hfirst hg, hP⟩
  · rintro ⟨hrun, hP⟩
    obtain ⟨a, t, hfirst, hg⟩ := of_run_bind hrun
    exact run_bind_of_ok hfirst ((h a t v c').mpr ⟨hg, hP⟩)

/-- A reader that adds nothing. -/
theorem self {erase : α → α} (hgives : Gives r P) (herase : ∀ v, P v → erase v = v) :
    Completes r erase P r := by
  intro c v c'
  constructor
  · intro hrun
    have hP : P v := hgives c v c' hrun
    exact ⟨by rw [herase v hP]; exact hrun, hP⟩
  · rintro ⟨hrun, hP⟩
    rwa [herase v hP] at hrun

/-- A look-up adds what it finds. -/
theorem resolved {erase : α → α} {lookup : Pool → Except ReadError γ} {make : Option γ → α}
    (h : ∀ v, erase v = make none ∧ P v ↔ ∃ a, lookup pool = .ok a ∧ v = make (some a)) :
    Completes (do let found ← ClassFile.resolved (some pool) lookup; pure (make found)) erase P
      (do let found ← ClassFile.resolved none lookup; pure (make found)) := by
  intro c v c'
  have hbare : (do let found ← ClassFile.resolved none lookup; pure (make found) : Reader α) c =
      .ok (erase v, c') ↔ erase v = make none ∧ c' = c := by
    constructor
    · intro hrun
      exact of_run_pure hrun
    · rintro ⟨hv, rfl⟩
      rw [hv]
      rfl
  rw [hbare, and_right_comm, h v]
  constructor
  · intro hrun
    obtain ⟨found, t, hfound, hmade⟩ := of_run_bind hrun
    obtain ⟨⟨a, ha, rfl⟩, rfl⟩ := resolved_eq_ok_iff.mp hfound
    obtain ⟨rfl, rfl⟩ := of_run_pure hmade
    exact ⟨⟨a, ha, rfl⟩, rfl⟩
  · rintro ⟨⟨a, ha, rfl⟩, rfl⟩
    exact run_bind_of_ok (resolved_eq_ok_iff.mpr ⟨⟨a, ha, rfl⟩, rfl⟩) rfl

end Completes

section

variable {padding : Nat}

/-- Operands of opcodes that work on no member and on no class name nothing. -/
theorem namedBy_bare_iff {v : Operand} (hmember : op.hasMemberOperand = false)
    (hclass : op.hasClassOperand = false) : v.NamedBy pool op ↔ v.bare = v := by
  constructor
  · intro h
    obtain ⟨number, member, classOperand⟩ := v
    obtain rfl : member = none := h.noMember hmember
    obtain rfl : classOperand = none := h.noClass hclass
    rfl
  · intro h
    exact ⟨fun heq => by simp [hmember] at heq, fun _ => by rw [← h]; rfl,
      fun heq => by simp [hclass] at heq, fun _ => by rw [← h]; rfl⟩

private theorem namedBy_member_iff {v : Operand} {index : UInt16}
    (hop : op.operands = .member padding) :
    v.bare = ⟨index.toNat, none, none⟩ ∧ v.NamedBy pool op ↔
      ∃ m, pool.member index = .ok m ∧ v = ⟨index.toNat, some m, none⟩ := by
  have hmember : op.hasMemberOperand = true := by rw [Opcode.hasMemberOperand, hop]
  have hclass : op.hasClassOperand = false := hasClassOperand_of_hasMemberOperand hmember
  obtain ⟨number, member, classOperand⟩ := v
  constructor
  · rintro ⟨hbare, hnamed⟩
    obtain rfl : number = index.toNat := congrArg Operand.number hbare
    obtain rfl : classOperand = none := hnamed.noClass hclass
    obtain ⟨index', m, hnumber, hat, rfl⟩ := hnamed.member hmember
    obtain rfl : index = index' := UInt16.toNat_inj.mp (Int.ofNat_inj.mp hnumber)
    exact ⟨m, Pool.member_eq_ok_iff.mpr hat, rfl⟩
  · rintro ⟨m, hm, hv⟩
    cases hv
    exact ⟨rfl, fun _ => ⟨index, m, rfl, Pool.member_eq_ok_iff.mp hm, rfl⟩,
      fun heq => by simp [hmember] at heq, fun heq => by simp [hclass] at heq, fun _ => rfl⟩

private theorem namedBy_classRef_iff {v : Operand} {index : UInt16}
    (hop : op.operands = .classRef padding) :
    v.bare = ⟨index.toNat, none, none⟩ ∧ v.NamedBy pool op ↔
      ∃ name, pool.className index = .ok name ∧ v = ⟨index.toNat, none, some name⟩ := by
  have hclass : op.hasClassOperand = true := by rw [Opcode.hasClassOperand, hop]
  have hmember : op.hasMemberOperand = false := by rw [Opcode.hasMemberOperand, hop]
  obtain ⟨number, member, classOperand⟩ := v
  constructor
  · rintro ⟨hbare, hnamed⟩
    obtain rfl : number = index.toNat := congrArg Operand.number hbare
    obtain rfl : member = none := hnamed.noMember hmember
    obtain ⟨index', name, hnumber, hat, rfl⟩ := hnamed.classOperand hclass
    obtain rfl : index = index' := UInt16.toNat_inj.mp (Int.ofNat_inj.mp hnumber)
    exact ⟨name, Pool.className_eq_ok_iff.mpr hat, rfl⟩
  · rintro ⟨name, hname, hv⟩
    cases hv
    exact ⟨rfl, fun heq => by simp [hmember] at heq, fun _ => rfl,
      fun _ => ⟨index, name, rfl, Pool.className_eq_ok_iff.mp hname, rfl⟩,
      fun heq => by simp [hclass] at heq⟩

/-- Opcodes that work on no member and on no class are read alike with and without constants. -/
private theorem readOperand_eq_of_plain (pc : Nat) (hmember : op.hasMemberOperand = false)
    (hclass : op.hasClassOperand = false) :
    readOperand (some pool) op pc = readOperand none op pc := by
  unfold readOperand
  cases hop : op.operands with
  | member padding => simp [Opcode.hasMemberOperand, hop] at hmember
  | classRef padding => simp [Opcode.hasClassOperand, hop] at hclass
  | _ => rfl

/-- Without constants the operands name nothing. -/
theorem gives_readOperand_none (op : Opcode) (pc : Nat) :
    Gives (readOperand none op pc) fun v => v.bare = v := by
  unfold readOperand
  cases op.operands with
  | none => exact .pure rfl
  | byte => exact .after fun _ => .pure rfl
  | signedByte => exact .after fun _ => .pure rfl
  | short => exact .after fun _ => .pure rfl
  | signedShort => exact .after fun _ => .pure rfl
  | signedWord => exact .after fun _ => .pure rfl
  | localIncrement => exact .after fun _ => .after fun _ => .pure rfl
  | member padding => exact .after fun _ => .after fun _ => .pure rfl
  | classRef padding => exact .after fun _ => .after fun _ => .pure rfl
  | tableSwitch =>
    refine .after fun _ => .after fun _ => .after fun _ => .after fun _ => ?_
    dsimp only
    split
    · exact .after fun _ => .after fun _ => .pure rfl
    · exact .after fun _ => .pure rfl
  | lookupSwitch =>
    refine .after fun _ => .after fun _ => .after fun _ => ?_
    dsimp only
    split
    · exact .after fun _ => .after fun _ => .pure rfl
    · exact .after fun _ => .pure rfl
  | wide =>
    refine .after fun _ => .after fun _ => ?_
    dsimp only
    split
    · exact .after fun _ => .pure rfl
    · split
      · exact .after fun _ => .pure rfl
      · exact .pure rfl
  | undefined =>
    intro c v c' hrun
    cases hrun

/-- With constants the operands are those that are read without them, with the names of what they
lead to. -/
theorem completes_readOperand (pool : Pool) (op : Opcode) (pc : Nat) :
    Completes (readOperand (some pool) op pc) Operand.bare (·.NamedBy pool op)
      (readOperand none op pc) := by
  cases hop : op.operands with
  | member padding =>
    simp only [readOperand, hop]
    refine .after _ fun index => .after _ fun _ => ?_
    exact .resolved fun v => namedBy_member_iff hop
  | classRef padding =>
    simp only [readOperand, hop]
    refine .after _ fun index => .after _ fun _ => ?_
    exact .resolved fun v => namedBy_classRef_iff hop
  | _ =>
    have hmember : op.hasMemberOperand = false := by rw [Opcode.hasMemberOperand, hop]
    have hclass : op.hasClassOperand = false := by rw [Opcode.hasClassOperand, hop]
    rw [readOperand_eq_of_plain pc hmember hclass]
    refine .self (fun c v c' hrun => ?_) fun v hv => (namedBy_bare_iff hmember hclass).mp hv
    exact (namedBy_bare_iff hmember hclass).mpr (gives_readOperand_none op pc c v c' hrun)

end

/-- With constants an instruction is the one that is read without them, with the names of what its
operands lead to. -/
theorem completes_readInstruction (pool : Pool) :
    Completes (readInstruction (some pool)) Instruction.bare (·.NamedBy pool)
      (readInstruction none) := by
  intro c insn c'
  have hoperands := fun (code : UInt8) =>
    (completes_readOperand pool ⟨code⟩ c.offset).within (.instruction ⟨code⟩ c.offset)
  unfold readInstruction
  constructor
  · intro hrun
    obtain ⟨⟨code, c₁⟩, hcode, hrun⟩ := of_bind hrun
    obtain ⟨⟨v, c₂⟩, hoperand, hinsn⟩ := of_bind hrun
    obtain ⟨hbare, hnamed⟩ := (hoperands code c₁ v c₂).mp hoperand
    cases hinsn
    exact ⟨(bind_of_ok hcode).trans (bind_of_ok hbare), hnamed⟩
  · rintro ⟨hrun, hnamed⟩
    obtain ⟨⟨code, c₁⟩, hcode, hrun⟩ := of_bind hrun
    obtain ⟨⟨⟨number, member, classOperand⟩, c₂⟩, hoperand, hinsn⟩ := of_bind hrun
    obtain ⟨hbare, rfl⟩ := Prod.mk.inj (Except.ok.inj hinsn)
    -- the operands that are read are those of the instruction, without names
    obtain ⟨pc, op, length, operand, member', classOperand'⟩ := insn
    obtain ⟨rfl, rfl, rfl, rfl, rfl, rfl⟩ := Instruction.mk.inj hbare
    have hnames := (hoperands code c₁ ⟨number, member', classOperand'⟩ c₂).mpr ⟨hoperand, hnamed⟩
    exact (bind_of_ok hcode).trans (bind_of_ok hnames)

/-- With constants the instructions are those that are read without them, with the names of what
their operands lead to. -/
theorem completes_readInstructions (pool : Pool) (bound : Nat) :
    Completes (readInstructions (some pool) bound) (List.map Instruction.bare)
      (fun insns => ∀ insn ∈ insns, insn.NamedBy pool) (readInstructions none bound) := by
  have hnil : ∀ (c : Cursor) (insns : List Instruction) (c' : Cursor),
      (.ok ([], c) : Except ReadError (List Instruction × Cursor)) = .ok (insns, c') ↔
        (.ok ([], c) : Except ReadError (List Instruction × Cursor)) =
          .ok (insns.map Instruction.bare, c') ∧ ∀ insn ∈ insns, insn.NamedBy pool := by
    intro c insns c'
    cases insns with
    | nil => simp
    | cons insn insns => simp
  induction bound with
  | zero => exact hnil
  | succ bound ih =>
    intro c insns c'
    unfold readInstructions
    dsimp only
    split
    · exact hnil c insns c'
    constructor
    · intro hrun
      obtain ⟨⟨insn, c₁⟩, hinsn, hrun⟩ := of_bind hrun
      obtain ⟨⟨rest, c₂⟩, hrest, hrun⟩ := of_bind hrun
      cases hrun
      obtain ⟨hbare, hnamed⟩ := (completes_readInstruction pool c insn c₁).mp hinsn
      obtain ⟨hbares, hnames⟩ := (ih c₁ rest c₂).mp hrest
      refine ⟨(bind_of_ok hbare).trans (bind_of_ok hbares), ?_⟩
      exact List.forall_mem_cons.mpr ⟨hnamed, hnames⟩
    · -- the first instruction is found again with its name, and the others by induction
      rintro ⟨hrun, hnames⟩
      obtain ⟨⟨first, c₁⟩, hfirst, hrun⟩ := of_bind hrun
      obtain ⟨⟨others, c₂⟩, hothers, hrun⟩ := of_bind hrun
      obtain ⟨hcons, rfl⟩ := Prod.mk.inj (Except.ok.inj hrun)
      cases insns with
      | nil => cases hcons
      | cons insn rest =>
        obtain ⟨rfl, rfl⟩ := List.cons.inj hcons
        obtain ⟨hnamed, hnames⟩ := List.forall_mem_cons.mp hnames
        have hinsn := (completes_readInstruction pool c insn c₁).mpr ⟨hfirst, hnamed⟩
        have hrest := (ih c₁ rest c₂).mpr ⟨hothers, hnames⟩
        exact (bind_of_ok hinsn).trans (bind_of_ok hrest)

/-- Decoding succeeds exactly when the readers of the instructions do. -/
theorem decode_eq_ok_iff_exists_run {constants : Option Pool} {code : Bytes}
    {insns : List Instruction} :
    decode constants code = .ok insns ↔
      ∃ c, readInstructions constants code.length (Cursor.start code) = .ok (insns, c) := by
  unfold decode Reader.run
  constructor
  · intro h
    obtain ⟨⟨insns', c⟩, hrun, rfl⟩ := of_map h
    exact ⟨c, hrun⟩
  · rintro ⟨c, hrun⟩
    rw [hrun]
    rfl

/-- Without constants no instruction names anything. -/
theorem gives_readInstructions_none (bound : Nat) :
    Gives (readInstructions none bound) fun insns => insns.map Instruction.bare = insns := by
  induction bound with
  | zero => exact .pure rfl
  | succ bound ih =>
    intro c insns c' hrun
    unfold readInstructions at hrun
    dsimp only at hrun
    split at hrun
    · cases hrun
      rfl
    · obtain ⟨⟨insn, c₁⟩, hinsn, hrun⟩ := of_bind hrun
      obtain ⟨⟨rest, c₂⟩, hrest, hrun⟩ := of_bind hrun
      cases hrun
      obtain ⟨⟨code, _⟩, -, hinsn⟩ := of_bind hinsn
      obtain ⟨⟨v, _⟩, hoperand, hinsn⟩ := of_bind hinsn
      cases hinsn
      have hbare : v.bare = v :=
        (gives_readOperand_none ⟨code⟩ c.offset).within _ _ _ _ hoperand
      rw [List.map_cons, ih c₁ rest c₂ hrest, ← hbare]
      rfl

/-- Decoding with constants gives what decoding without them gives, with the names of what the
operands lead to. -/
theorem decode_some_eq_ok_iff {code : Bytes} {insns : List Instruction} :
    decode (some pool) code = .ok insns ↔
      decode none code = .ok (insns.map Instruction.bare) ∧ ∀ insn ∈ insns, insn.NamedBy pool := by
  rw [decode_eq_ok_iff_exists_run, decode_eq_ok_iff_exists_run, exists_and_right.symm]
  exact exists_congr fun c => completes_readInstructions pool code.length (.start code) insns c

/-- Instructions that name nothing can name what their operands lead to. -/
theorem exists_named_of_resolvable {insns : List Instruction}
    (hbare : insns.map Instruction.bare = insns) (h : ∀ insn ∈ insns, insn.Resolvable pool) :
    ∃ named : List Instruction,
      named.map Instruction.bare = insns ∧ ∀ insn ∈ named, insn.NamedBy pool := by
  induction insns with
  | nil => exact ⟨[], rfl, fun _ hmem => (List.not_mem_nil hmem).elim⟩
  | cons insn insns ih =>
    obtain ⟨hfirst, hrest⟩ := List.cons.inj hbare
    obtain ⟨hresolvable, hothers⟩ := List.forall_mem_cons.mp h
    obtain ⟨named, hnamed, hnames⟩ := ih hrest hothers
    obtain ⟨w, hw, hname⟩ := Operand.Resolvable.exists_named hresolvable
    have hnumber : w.number = insn.operand := congrArg Operand.number hw
    refine ⟨{ insn with operand := w.number, member := w.member, classOperand := w.classOperand } ::
      named, ?_, List.forall_mem_cons.mpr ⟨hname, hnames⟩⟩
    rw [List.map_cons, hnamed, hnumber]
    exact congrArg (· :: insns) hfirst

/-- Constants never change what a code array is decoded to: they add to each instruction the names
of what its operands lead to, and a code array that is decoded without them is decoded with them
exactly when all operands that should lead to a member or to a class do. -/
theorem decode_only_named (pool : Pool) (code : Bytes) :
    (∀ named, decode (some pool) code = .ok named ↔
      decode none code = .ok (named.map Instruction.bare) ∧
        ∀ insn ∈ named, insn.NamedBy pool) ∧
    ∀ insns, decode none code = .ok insns →
      ((∃ named, decode (some pool) code = .ok named) ↔
        ∀ insn ∈ insns, insn.Resolvable pool) := by
  refine ⟨fun named => decode_some_eq_ok_iff, fun insns hdecode => ⟨?_, fun h => ?_⟩⟩
  · rintro ⟨named, hnamed⟩
    obtain ⟨hbare, hnames⟩ := decode_some_eq_ok_iff.mp hnamed
    obtain rfl : insns = named.map Instruction.bare := Except.ok.inj (hdecode.symm.trans hbare)
    intro insn hinsn
    obtain ⟨r, hr, rfl⟩ := List.mem_map.mp hinsn
    exact (hnames r hr).resolvable
  · obtain ⟨c, hrun⟩ := decode_eq_ok_iff_exists_run.mp hdecode
    have hbare := gives_readInstructions_none _ _ _ _ hrun
    obtain ⟨named, rfl, hnames⟩ := exists_named_of_resolvable hbare h
    exact ⟨named, decode_some_eq_ok_iff.mpr ⟨hdecode, hnames⟩⟩

/-- An object is made and a method of its class is called. -/
theorem decode_only_named_call :
    let pool : Pool := ⟨#[none, some (.utf8 "demo/A"), some (.classRef 1), some (.utf8 "run"),
      some (.utf8 "()V"), some (.nameAndType 3 4), some (.methodRef 2 5)]⟩
    let code : Bytes := [0xbb, 0, 2, 0xb8, 0, 6, 0xb1]
    let insns : List Instruction := [⟨0, ⟨0xbb⟩, 3, 2, none, none⟩, ⟨3, ⟨0xb8⟩, 3, 6, none, none⟩,
      ⟨6, ⟨0xb1⟩, 1, 0, none, none⟩]
    decode none code = .ok insns ∧ ∀ insn ∈ insns, insn.Resolvable pool := by
  intro pool code insns
  have hbare : decode none code = .ok insns := by decide +kernel
  have hnamed : decode (some pool) code = .ok [⟨0, ⟨0xbb⟩, 3, 2, none, some "demo/A"⟩,
      ⟨3, ⟨0xb8⟩, 3, 6, some ⟨"demo/A", "run", "()V", false⟩, none⟩,
      ⟨6, ⟨0xb1⟩, 1, 0, none, none⟩] := by decide +kernel
  exact ⟨hbare, ((decode_only_named pool code).2 insns hbare).mp ⟨_, hnamed⟩⟩

end ReturnAudit.ClassFile
