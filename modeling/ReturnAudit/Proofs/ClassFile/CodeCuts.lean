import ReturnAudit.Proofs.ClassFile.Decoding

/-!
# Cutting and moving code

Code can be cut between instructions and nowhere else, because no part of an instruction is an
instruction. What stands behind a multiple of four bytes is decoded as if it stood at the beginning,
because the padding of switches comes out the same.
-/

namespace ReturnAudit.ClassFile

variable {pool : Option Pool}

namespace Decodes

variable {pc : Nat} {a : Bytes} {insns : List Instruction}

/-- Instructions stand inside the code. -/
theorem pc_bounds (h : Decodes pool pc a insns) :
    ∀ i ∈ insns, pc ≤ i.pc ∧ i.pc < pc + a.length := by
  induction h with
  | nil => simp
  | cons hb _ ih =>
    have hpos := length_pos_of_reads hb
    have hpc := pc_of_reads hb
    intro i hi
    rw [List.length_append]
    rcases List.mem_cons.mp hi with rfl | hi
    · omega
    · have hbounds := ih i hi
      omega

/-- Code behind decoded code is decoded on its own. -/
theorem append_iff (h : Decodes pool pc a insns) {b : Bytes} {all : List Instruction} :
    Decodes pool pc (a ++ b) all ↔
      ∃ later, Decodes pool (pc + a.length) b later ∧ all = insns ++ later := by
  induction h generalizing all with
  | nil pc => simp
  | cons hb _ ih =>
    rw [List.append_assoc, decodes_append_iff hb]
    simp only [ih, List.length_append, Nat.add_assoc]
    constructor
    · rintro ⟨_, ⟨later, hlater, rfl⟩, rfl⟩
      exact ⟨later, hlater, rfl⟩
    · rintro ⟨later, hlater, rfl⟩
      exact ⟨_, ⟨later, hlater, rfl⟩, rfl⟩

/-- There is one way to decode code. -/
theorem unique (h : Decodes pool pc a insns) {insns' : List Instruction}
    (h' : Decodes pool pc a insns') : insns' = insns := by
  rw [← List.append_nil a, h.append_iff] at h'
  obtain ⟨later, hlater, rfl⟩ := h'
  rw [decodes_nil_iff.mp hlater, List.append_nil]

/-- Code is decoded at every place that is aligned alike. -/
theorem exists_move (h : Decodes pool pc a insns) (pc' : Nat) (hpc : pc' % 4 = pc % 4) :
    ∃ insns', Decodes pool pc' a insns' := by
  induction h generalizing pc' with
  | nil => exact ⟨[], .nil pc'⟩
  | @cons pc b _ _ _ hb _ ih =>
    obtain ⟨insns', hinsns'⟩ := ih (pc' + b.length) (by omega)
    exact ⟨_, .cons (hb.move pc' hpc) hinsns'⟩

/-- Moving code by a multiple of four bytes moves its instructions. -/
theorem move_add (h : Decodes pool pc a insns) {d : Nat} (hd : 4 ∣ d) :
    Decodes pool (pc + d) a (insns.map fun i => { i with pc := i.pc + d }) := by
  induction h with
  | nil => exact .nil _
  | @cons pc b _ _ _ hb _ ih =>
    have hpc := pc_of_reads hb
    have hmoved := hb.move (pc + d) (by omega)
    rw [← hpc] at hmoved
    rw [Nat.add_right_comm] at ih
    exact .cons (hpc ▸ hmoved) ih

/-- What stands behind a multiple of four bytes is decoded as if it stood at the beginning. -/
theorem aligned_iff {d : Nat} (hd : 4 ∣ d) :
    Decodes pool d a insns ↔ ∃ insns', Decodes pool 0 a insns' ∧
      insns = insns'.map fun i => { i with pc := i.pc + d } := by
  constructor
  · intro h
    obtain ⟨insns', hinsns'⟩ := h.exists_move 0 (by omega)
    have hback := hinsns'.move_add hd
    rw [Nat.zero_add] at hback
    exact ⟨insns', hinsns', hback.unique h⟩
  · rintro ⟨insns', h, rfl⟩
    have hmoved := h.move_add hd
    rwa [Nat.zero_add] at hmoved

/-- No part of an instruction can be decoded but the whole. -/
theorem not_decodes_take {b : Bytes} {insn : Instruction} {k : Nat}
    (h : Reads pc (readInstruction pool) b insn) (hpos : 0 < k) (hk : k < b.length)
    {first : List Instruction} : ¬ Decodes pool pc (b.take k) first := by
  intro hfirst
  have hne : b.take k ≠ [] := by
    rw [← List.length_pos_iff, List.length_take]
    omega
  obtain ⟨b', insn', rest, htake, hb'⟩ := hfirst.exists_reads hne
  have htext : b ++ [] = b' ++ (rest ++ b.drop k) := by
    rw [← List.append_assoc, ← htake, List.take_append_drop, List.append_nil]
  obtain ⟨rfl, -, -⟩ := h.unique hb' htext
  have hlength := congrArg List.length htake
  rw [List.length_take, List.length_append] at hlength
  omega

/-- No instruction stands before the first one. -/
theorem filter_before (h : Decodes pool pc a insns) : insns.filter (fun i => i.pc < pc) = [] := by
  rw [List.filter_eq_nil_iff]
  intro i hi
  simpa using (h.pc_bounds i hi).1

/-- Code can be cut between instructions and nowhere else. -/
theorem take_iff (h : Decodes pool pc a insns) {k : Nat} (hk : k ≤ a.length)
    (first : List Instruction) :
    Decodes pool pc (a.take k) first ↔
      (k = a.length ∨ ∃ i ∈ insns, i.pc = pc + k) ∧
        first = insns.filter fun i => i.pc < pc + k := by
  induction h generalizing k first with
  | nil pc =>
    obtain rfl : k = 0 := Nat.le_zero.mp hk
    simp [decodes_nil_iff]
  | @cons pc b rest insn insns hb hrest ih =>
    have hpos := length_pos_of_reads hb
    have hpc := pc_of_reads hb
    have hlater : ∀ i ∈ insns, pc + b.length ≤ i.pc := fun i hi => (hrest.pc_bounds i hi).1
    rw [List.length_append] at hk ⊢
    rcases Nat.eq_zero_or_pos k with rfl | hk0
    · -- nothing is left before the first instruction
      rw [List.take_zero, decodes_nil_iff, Nat.add_zero, (Decodes.cons hb hrest).filter_before]
      exact ⟨fun hnil => ⟨.inr ⟨insn, List.mem_cons_self, hpc⟩, hnil⟩, fun hnil => hnil.2⟩
    rcases Nat.lt_or_ge k b.length with hlt | hge
    · -- the cut is inside the first instruction
      rw [List.take_append_of_le_length hlt.le]
      refine iff_of_false (not_decodes_take hb hk0 hlt) ?_
      rintro ⟨hend | ⟨i, hi, hi_pc⟩, _⟩
      · omega
      · rcases List.mem_cons.mp hi with rfl | hi
        · omega
        · have := hlater i hi
          omega
    · -- the first instruction is kept whole
      have hplace : pc + b.length + (k - b.length) = pc + k := by omega
      have hkept : (insn :: insns).filter (fun i => i.pc < pc + k) =
          insn :: insns.filter (fun i => i.pc < pc + k) := by
        rw [List.filter_cons_of_pos (by simpa [hpc] using hk0)]
      have hcuts := ih (k := k - b.length) (by omega)
      simp only [hplace] at hcuts
      rw [List.take_append, List.take_of_length_le hge, decodes_append_iff hb, hkept]
      simp only [hcuts]
      constructor
      · rintro ⟨later, ⟨hcut, rfl⟩, rfl⟩
        refine ⟨?_, rfl⟩
        rcases hcut with hend | ⟨i, hi, hi_pc⟩
        · exact .inl (by omega)
        · exact .inr ⟨i, List.mem_cons_of_mem _ hi, hi_pc⟩
      · rintro ⟨hcut, rfl⟩
        refine ⟨_, ⟨?_, rfl⟩, rfl⟩
        rcases hcut with hend | ⟨i, hi, hi_pc⟩
        · exact .inl (by omega)
        · rcases List.mem_cons.mp hi with rfl | hi
          · omega
          · exact .inr ⟨i, hi, hi_pc⟩

end Decodes

/-- Code behind decoded code whose length is a multiple of four is decoded as if it stood alone, at
positions moved by that length. Decoded code can be cut where an instruction starts or behind the
last one, and the instructions before the cut stay the same. -/
theorem decode_append_and_take (pool : Option Pool) {a : Bytes} {insns : List Instruction}
    (h : decode pool a = .ok insns) :
    (4 ∣ a.length → ∀ b all, decode pool (a ++ b) = .ok all ↔
      ∃ later, decode pool b = .ok later ∧
        all = insns ++ later.map fun i => { i with pc := i.pc + a.length }) ∧
    ∀ k ≤ a.length, ∀ first, decode pool (a.take k) = .ok first ↔
      (k = a.length ∨ ∃ i ∈ insns, i.pc = k) ∧ first = insns.filter fun i => i.pc < k := by
  rw [decode_eq_ok_iff] at h
  constructor
  · intro hlength b all
    simp only [decode_eq_ok_iff]
    rw [h.append_iff]
    simp only [Nat.zero_add, Decodes.aligned_iff hlength]
    constructor
    · rintro ⟨_, ⟨later, hlater, rfl⟩, rfl⟩
      exact ⟨later, hlater, rfl⟩
    · rintro ⟨later, hlater, rfl⟩
      exact ⟨_, ⟨later, hlater, rfl⟩, rfl⟩
  · intro k hk first
    have hcut := h.take_iff hk first
    simp only [Nat.zero_add] at hcut
    rw [decode_eq_ok_iff]
    exact hcut

/-- A push, a drop and a filler. -/
def pushDrop : Bytes := [0x10, 7, 0x57, 0x00]

/-- A switch with one target, aligned as at the beginning of a code array. -/
def oneTarget : Bytes :=
  [0xaa, 0, 0, 0] ++ [0, 0, 0, 20] ++ [0, 0, 0, 5] ++ [0, 0, 0, 5] ++ [0, 0, 0, 20]

/-- The switch moves behind the other instructions with its padding, and the push cannot be cut. -/
theorem decode_append_and_take_oneTarget :
    decode none pushDrop =
      .ok [⟨0, ⟨0x10⟩, 2, 7, none, none⟩, ⟨2, ⟨0x57⟩, 1, 0, none, none⟩,
        ⟨3, ⟨0⟩, 1, 0, none, none⟩] ∧
    decode none (pushDrop ++ oneTarget) =
      .ok [⟨0, ⟨0x10⟩, 2, 7, none, none⟩, ⟨2, ⟨0x57⟩, 1, 0, none, none⟩,
        ⟨3, ⟨0⟩, 1, 0, none, none⟩, ⟨4, ⟨0xaa⟩, 20, 20, none, none⟩] ∧
    decode none (pushDrop.take 2) = .ok [⟨0, ⟨0x10⟩, 2, 7, none, none⟩] ∧
    ∀ first, decode none (pushDrop.take 1) ≠ .ok first := by
  have hpush : decode none pushDrop = .ok [⟨0, ⟨0x10⟩, 2, 7, none, none⟩,
      ⟨2, ⟨0x57⟩, 1, 0, none, none⟩, ⟨3, ⟨0⟩, 1, 0, none, none⟩] := by decide +kernel
  have hswitch : decode none oneTarget = .ok [⟨0, ⟨0xaa⟩, 20, 20, none, none⟩] := by
    decide +kernel
  obtain ⟨happend, htake⟩ := decode_append_and_take none hpush
  refine ⟨hpush, ?_, ?_, ?_⟩
  · exact (happend (by decide) oneTarget _).mpr ⟨_, hswitch, rfl⟩
  · exact (htake 2 (by decide) _).mpr ⟨by decide, by decide⟩
  · intro first hfirst
    exact absurd ((htake 1 (by decide) first).mp hfirst).1 (by decide)

end ReturnAudit.ClassFile
