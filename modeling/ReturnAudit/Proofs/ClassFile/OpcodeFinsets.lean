import Mathlib.Data.Finset.Card
import ReturnAudit.MethodFacts
import ReturnAudit.Proofs.ClassFile.OpcodeMembers

/-!
# Opcode sets as finite sets

Each operation on the four words of an opcode set is the operation of the same name on finite sets:
the set bits of all words together are as many as the members, and a body passes a prescreen exactly
when it shares an opcode with every family that is asked for.
-/

namespace ReturnAudit

open ClassFile

/-- The set bits of a word, counted one after the other. -/
theorem toNat_cpop_eq_countP {n : Nat} (x : BitVec n) :
    x.cpop.toNat = (List.range n).countP x.getLsbD := by
  have hfirst : ∀ k, x.cpopNatRec k 0 = (List.range k).countP x.getLsbD := by
    intro k
    induction k with
    | zero => rfl
    | succ k ih =>
      rw [BitVec.cpopNatRec_succ, BitVec.cpopNatRec_add, ih, List.range_succ, List.countP_append,
        List.countP_singleton]
      cases x.getLsbD k <;> rfl
  rw [BitVec.toNat_cpop, hfirst]

/-- Numbers can be counted in blocks. -/
theorem countP_range_blocks (p : Nat → Bool) (k n : Nat) :
    (List.range (k * n)).countP p =
      (List.range n).foldl (fun m w => m + (List.range k).countP fun b => p (k * w + b)) 0 := by
  induction n with
  | zero => rfl
  | succ n ih =>
    rw [Nat.mul_add_one, List.range_add, List.countP_append, List.countP_map, ih, List.range_succ,
      List.foldl_append]
    rfl

namespace OpcodeSet

/-- The members as a list are those that the set has. -/
theorem mem_toList (s : OpcodeSet) (op : Opcode) : op ∈ s.toList ↔ s.has op = true := by
  rw [toList, List.mem_filter, and_iff_right_iff_imp]
  intro _
  rw [List.mem_map]
  exact ⟨op.code.toNat, List.mem_range.mpr op.code_lt, congrArg Opcode.mk UInt8.ofNat_toNat⟩

/-- Each member is there once. -/
theorem nodup_toList (s : OpcodeSet) : s.toList.Nodup := by
  rw [toList]
  refine List.Nodup.filter _ (List.Nodup.map_on ?_ List.nodup_range)
  intro c hc c' hc' heq
  have hcode := Opcode.code_toNat_inj.mpr heq
  rwa [Opcode.toNat_code_ofNat (List.mem_range.mp hc),
    Opcode.toNat_code_ofNat (List.mem_range.mp hc')] at hcode

/-- The bits of a word belong to the opcodes with its 64 codes. -/
theorem countP_word (s : OpcodeSet) (w : Fin 4) :
    (s.words.get w).toBitVec.cpop.toNat =
      (List.range 64).countP fun b => s.has ⟨(64 * w.val + b).toUInt8⟩ := by
  rw [toNat_cpop_eq_countP]
  apply List.countP_congr
  intro b hb
  obtain ⟨hword, hplace⟩ := Opcode.word_and_place_ofNat w (List.mem_range.mp hb)
  simp only [has_eq_getLsbD, hword, hplace]

/-- The number of set bits in the words is the number of members. -/
theorem size_eq_length_toList (s : OpcodeSet) : s.size = s.toList.length := by
  have hwords : s.size = (List.range 4).foldl (fun n w =>
      n + (List.range 64).countP fun b => s.has ⟨(64 * w + b).toUInt8⟩) 0 := by
    rw [← List.map_coe_finRange_eq_range (n := 4), List.foldl_map]
    simp only [size, countP_word]
  have hcodes : s.toList.length = (List.range (64 * 4)).countP fun c => s.has ⟨c.toUInt8⟩ := by
    rw [toList, ← List.countP_eq_length_filter, List.countP_map]
    rfl
  rw [hwords, hcodes, countP_range_blocks]

/-- A set with the members of a finite set has its size. -/
theorem size_eq_card {s : OpcodeSet} {ops : Finset Opcode}
    (h : ∀ op, s.has op = true ↔ op ∈ ops) : s.size = ops.card := by
  have hops : s.toList.toFinset = ops := by
    ext op
    rw [List.mem_toFinset, mem_toList, h]
  rw [size_eq_length_toList, ← List.toFinset_card_of_nodup s.nodup_toList, hops]

/-- The set of some opcodes after further ones were inserted one by one. -/
def inserting (initial added : List Opcode) : OpcodeSet :=
  added.foldl insert (ofList initial)

/-- A set has what was in it at first and what was inserted. -/
theorem has_inserting (initial added : List Opcode) (op : Opcode) :
    (inserting initial added).has op = true ↔ op ∈ initial ∨ op ∈ added := by
  rw [inserting, has_foldl_insert, has_ofList]

/-- A set is empty when nothing was in it and nothing was inserted. -/
theorem isEmpty_inserting (initial added : List Opcode) :
    (inserting initial added).isEmpty = true ↔ initial = [] ∧ added = [] := by
  rw [isEmpty_iff]
  simp only [Bool.eq_false_iff, ne_eq, has_inserting, not_or, forall_and,
    ← List.eq_nil_iff_forall_not_mem]

/-- A family shares an opcode with the facts about a method when it shares one with the body. -/
theorem ofMethod_meets_iff (m : Method) (family : OpcodeSet) :
    (MethodFacts.ofMethod m).opcodes.meets family = true ↔
      ∃ insn ∈ m.instructions, family.has insn.opcode = true := by
  have hopcodes : ∀ op, (MethodFacts.ofMethod m).opcodes.has op = true ↔
      ∃ insn ∈ m.instructions, insn.opcode = op := by
    intro op
    cases hcode : m.code with
    | none => simp [MethodFacts.ofMethod, Method.instructions, hcode]
    | some code =>
      cases hinsns : code.instructions with
      | nil => simp [MethodFacts.ofMethod, Method.instructions, hcode, hinsns]
      | cons insn insns =>
        simp only [MethodFacts.ofMethod, Method.instructions, hcode, hinsns, List.isEmpty_cons,
          Bool.false_eq_true, if_false, has_ofList, List.mem_map]
  rw [meets_iff]
  simp only [hopcodes]
  constructor
  · rintro ⟨_, ⟨insn, hinsn, rfl⟩, hfamily⟩
    exact ⟨insn, hinsn, hfamily⟩
  · rintro ⟨insn, hinsn, hfamily⟩
    exact ⟨insn.opcode, ⟨insn, hinsn, rfl⟩, hfamily⟩

/-- Sets that are built from lists of opcodes by insertions are the finite sets of what was listed
or inserted: membership, size, emptiness and common members are as there. So the prescreen of a body
passes exactly when every family shares an opcode with it. -/
theorem inserting_is_finite_set :
    (∀ initial added : List Opcode,
      (∀ op, (inserting initial added).has op = true ↔ op ∈ initial ∨ op ∈ added) ∧
      (inserting initial added).size = (initial ++ added).toFinset.card ∧
      ((inserting initial added).isEmpty = true ↔ initial = [] ∧ added = []) ∧
      ∀ initial' added' : List Opcode,
        (inserting initial added).meets (inserting initial' added') = true ↔
          ∃ op, (op ∈ initial ∨ op ∈ added) ∧ (op ∈ initial' ∨ op ∈ added')) ∧
    ∀ (m : Method) (families : List OpcodeSet),
      (MethodFacts.ofMethod m).opcodes.meetsAll families = true ↔
        ∀ family ∈ families, ∃ insn ∈ m.instructions, family.has insn.opcode = true := by
  constructor
  · intro initial added
    refine ⟨has_inserting initial added, ?_, isEmpty_inserting initial added, ?_⟩
    · apply size_eq_card
      intro op
      rw [has_inserting, List.mem_toFinset, List.mem_append]
    · intro initial' added'
      simp only [meets_iff, has_inserting]
  · intro m families
    simp only [meetsAll, List.all_eq_true, ofMethod_meets_iff]

/-- The last bit of a word, the first one of the next and the last one of all are bits of their
own. -/
example : (inserting [⟨63⟩, ⟨64⟩] [⟨255⟩, ⟨64⟩]).size = 3 := by decide

end OpcodeSet

end ReturnAudit
