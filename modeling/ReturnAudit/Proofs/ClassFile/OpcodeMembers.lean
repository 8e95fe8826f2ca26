import ReturnAudit.ClassFile.OpcodeSet

/-!
# The members of an opcode set

Every code has a place, a word and a bit in it, and every place belongs to a code. So a set of
opcodes is determined by its members: membership after an insertion is what one expects, and two
sets meet exactly when some opcode is a member of both.
-/

namespace ReturnAudit

namespace Opcode

/-- A code is a byte. -/
theorem code_lt (op : Opcode) : op.code.toNat < 256 :=
  op.code.toNat_lt

/-- Opcodes are told apart by their codes. -/
theorem code_toNat_inj {op op' : Opcode} : op.code.toNat = op'.code.toNat ↔ op = op' := by
  constructor
  · intro h
    cases op
    cases op'
    exact congrArg Opcode.mk (UInt8.toNat_inj.mp h)
  · rintro rfl
    rfl

/-- Every byte is the code of an opcode. -/
theorem toNat_code_ofNat {n : Nat} (hn : n < 256) : (Opcode.mk n.toUInt8).code.toNat = n :=
  Nat.mod_eq_of_lt hn

/-- What holds of all codes holds of all opcodes. -/
theorem forall_of_codes {P : Opcode → Prop} (h : ∀ n < 256, P ⟨n.toUInt8⟩) (op : Opcode) :
    P op := by
  have hcode : op.code.toNat.toUInt8 = op.code := UInt8.ofNat_toNat
  have hop := h op.code.toNat op.code_lt
  rwa [hcode] at hop

/-- The bit of an opcode in its word. -/
def place (op : Opcode) : Nat :=
  op.code.toNat % 64

/-- A place lies inside of a word. -/
theorem place_lt (op : Opcode) : op.place < 64 :=
  Nat.mod_lt _ (by decide)

/-- The word of an opcode is told by the higher bits of its code. -/
theorem val_word (op : Opcode) : op.word.val = op.code.toNat / 64 := by
  change (op.code >>> 6).toNat = op.code.toNat / 64
  rw [UInt8.toNat_shiftRight, show (6 : UInt8).toNat % 8 = 6 from rfl, Nat.shiftRight_eq_div_pow]

/-- Word and bit tell the opcodes apart. -/
theorem eq_of_word_of_place {op op' : Opcode} (hword : op.word = op'.word)
    (hplace : op.place = op'.place) : op = op' := by
  have hval : op.word.val = op'.word.val := congrArg Fin.val hword
  rw [val_word, val_word] at hval
  unfold place at hplace
  apply code_toNat_inj.mp
  omega

/-- The bit of a word belongs to the opcode with the code at that place. -/
theorem word_and_place_ofNat (w : Fin 4) {b : Nat} (hb : b < 64) :
    (Opcode.mk (64 * w.val + b).toUInt8).word = w ∧
      (Opcode.mk (64 * w.val + b).toUInt8).place = b := by
  have hcode : 64 * w.val + b < 256 := by omega
  constructor
  · apply Fin.ext
    rw [val_word, toNat_code_ofNat hcode]
    omega
  · rw [place, toNat_code_ofNat hcode]
    omega

/-- What holds of some place in the words holds of the place of some opcode. -/
theorem exists_place_iff {P : Fin 4 → Nat → Prop} :
    (∃ op : Opcode, P op.word op.place) ↔ ∃ w, ∃ b < 64, P w b := by
  constructor
  · rintro ⟨op, hop⟩
    exact ⟨op.word, op.place, op.place_lt, hop⟩
  · rintro ⟨w, b, hb, hP⟩
    obtain ⟨hword, hplace⟩ := word_and_place_ofNat w hb
    exact ⟨_, by rwa [hword, hplace]⟩

/-- The mask of an opcode has the one bit of its place. -/
theorem toBitVec_mask (op : Opcode) : op.mask.toBitVec = BitVec.twoPow 64 op.place := by
  have hlow : (op.code &&& 63).toNat = op.code.toNat % 64 := by
    rw [UInt8.toNat_and]
    exact Nat.and_two_pow_sub_one_eq_mod op.code.toNat 6
  have hshift : ((op.code &&& 63).toUInt64.toBitVec % 64#64).toNat = op.place := by
    rw [BitVec.toNat_umod, UInt64.toNat_toBitVec, UInt8.toNat_toUInt64, hlow]
    exact Nat.mod_eq_of_lt (Nat.mod_lt _ (by decide))
  rw [mask, UInt64.toBitVec_shiftLeft, BitVec.shiftLeft_eq', BitVec.twoPow_eq, ← hshift]
  rfl

end Opcode

namespace OpcodeSet

/-- A word with a bit set is not zero. -/
theorem word_ne_zero_iff (x : UInt64) : x ≠ 0 ↔ ∃ b < 64, x.toBitVec.getLsbD b = true := by
  rw [ne_eq, ← UInt64.toBitVec_inj]
  constructor
  · intro hne
    refine Classical.byContradiction fun hnone => hne ?_
    apply BitVec.eq_of_getLsbD_eq
    intro b hb
    have hbit : x.toBitVec.getLsbD b ≠ true := fun hset => hnone ⟨b, hb, hset⟩
    rw [Bool.eq_false_iff.mpr hbit]
    exact BitVec.getLsbD_zero.symm
  · rintro ⟨b, -, hbit⟩ hzero
    rw [hzero] at hbit
    exact Bool.false_ne_true (BitVec.getLsbD_zero.symm.trans hbit)

/-- An opcode is a member when the bit at its place is set. -/
theorem has_eq_getLsbD (s : OpcodeSet) (op : Opcode) :
    s.has op = (s.words.get op.word).toBitVec.getLsbD op.place := by
  rw [Bool.eq_iff_iff, has, bne_iff_ne, word_ne_zero_iff]
  simp only [UInt64.toBitVec_and, Opcode.toBitVec_mask, BitVec.getLsbD_and, BitVec.getLsbD_twoPow,
    Bool.and_eq_true, decide_eq_true_eq]
  constructor
  · rintro ⟨b, -, hbit, -, rfl⟩
    exact hbit
  · intro hbit
    exact ⟨op.place, op.place_lt, hbit, op.place_lt, rfl⟩

@[simp] theorem has_empty (op : Opcode) : empty.has op = false := by
  have hword : empty.words.get op.word = 0 := Vector.getElem_replicate ..
  rw [has_eq_getLsbD, hword]
  exact BitVec.getLsbD_zero

/-- An insertion writes one word. -/
theorem get_words_insert (s : OpcodeSet) (op : Opcode) (w : Fin 4) :
    (s.insert op).words.get w =
      if op.word = w then s.words.get w ||| op.mask else s.words.get w := by
  have hset : (s.insert op).words.get w =
      if op.word.val = w.val then s.words.get op.word ||| op.mask else s.words.get w :=
    @Vector.getElem_set _ _ s.words op.word _ op.word.isLt w w.isLt
  rw [hset]
  by_cases hword : op.word = w
  · rw [if_pos (congrArg Fin.val hword), if_pos hword, hword]
  · rw [if_neg fun hval => hword (Fin.ext hval), if_neg hword]

/-- An insertion adds one member and takes none away. -/
@[simp] theorem has_insert (s : OpcodeSet) (op op' : Opcode) :
    (s.insert op).has op' = (s.has op' || decide (op = op')) := by
  rw [has_eq_getLsbD, has_eq_getLsbD, get_words_insert]
  by_cases hword : op.word = op'.word
  · -- the two share a word, so they are the same when they share the bit
    have hsame : op.place = op'.place ↔ op = op' :=
      ⟨Opcode.eq_of_word_of_place hword, fun h => h ▸ rfl⟩
    rw [if_pos hword, UInt64.toBitVec_or, BitVec.getLsbD_or, Opcode.toBitVec_mask,
      BitVec.getLsbD_twoPow]
    simp [op.place_lt, hsame]
  · have hne : op ≠ op' := fun h => hword (h ▸ rfl)
    rw [if_neg hword, decide_eq_false hne, Bool.or_false]

/-- Insertions one after another add what is inserted. -/
theorem has_foldl_insert (ops : List Opcode) (s : OpcodeSet) (op : Opcode) :
    (ops.foldl insert s).has op = true ↔ s.has op = true ∨ op ∈ ops := by
  induction ops generalizing s with
  | nil => simp
  | cons op' ops ih =>
    rw [List.foldl_cons, ih, has_insert, Bool.or_eq_true, decide_eq_true_eq, List.mem_cons,
      or_assoc, @eq_comm _ op' op]

/-- The members of the set of some opcodes are those opcodes. -/
theorem has_ofList (ops : List Opcode) (op : Opcode) : (ofList ops).has op = true ↔ op ∈ ops := by
  rw [ofList, has_foldl_insert, has_empty]
  simp

/-- Two sets meet when some opcode is a member of both. -/
theorem meets_iff (s t : OpcodeSet) :
    s.meets t = true ↔ ∃ op, s.has op = true ∧ t.has op = true := by
  have hplaces := Opcode.exists_place_iff (P := fun w b =>
    (s.words.get w).toBitVec.getLsbD b = true ∧ (t.words.get w).toBitVec.getLsbD b = true)
  simp only [has_eq_getLsbD, hplaces]
  simp only [meets, List.any_eq_true, List.mem_finRange, true_and, bne_iff_ne, word_ne_zero_iff,
    UInt64.toBitVec_and, BitVec.getLsbD_and, Bool.and_eq_true]

/-- Sets with the same members are the same. -/
theorem ext_has {s t : OpcodeSet} (h : ∀ op, s.has op = t.has op) : s = t := by
  obtain ⟨words⟩ := s
  obtain ⟨words'⟩ := t
  congr 1
  apply Vector.ext
  intro w hw
  apply UInt64.toBitVec_inj.mp
  apply BitVec.eq_of_getLsbD_eq
  intro b hb
  obtain ⟨hword, hplace⟩ := Opcode.word_and_place_ofNat ⟨w, hw⟩ hb
  have hop := h ⟨(64 * w + b).toUInt8⟩
  simp only [has_eq_getLsbD, hword, hplace] at hop
  exact hop

/-- A set is empty when no opcode is a member. -/
theorem isEmpty_iff (s : OpcodeSet) : s.isEmpty = true ↔ ∀ op, s.has op = false := by
  rw [isEmpty, decide_eq_true_eq]
  constructor
  · rintro rfl op
    exact has_empty op
  · intro hnone
    apply ext_has
    intro op
    rw [hnone op, has_empty]

/-- Two sets meet when the lists they come from have an opcode in common. -/
theorem ofList_meets_ofList (ops ops' : List Opcode) :
    (ofList ops).meets (ofList ops') = true ↔ ∃ op ∈ ops, op ∈ ops' := by
  simp only [meets_iff, has_ofList]

end OpcodeSet

end ReturnAudit
