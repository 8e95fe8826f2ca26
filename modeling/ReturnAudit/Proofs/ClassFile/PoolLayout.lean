import ReturnAudit.Proofs.ClassFile.Reads

/-!
# The layout of a constant pool

Each kind of constant is read back from the bytes it is written as. A pool that is written constant
after constant is read back with every constant at its own index, a long or a double followed by an
empty index.
-/

namespace ReturnAudit.ClassFile

open Assembly (beShort beWord encodeConstant)

variable {o : Nat}

namespace Constant

/-- The number of bytes of the text in a constant. -/
def textLength : Constant → Nat
  | .utf8 text => text.length
  | _ => 0

/-- Whether the length of a text fits its field. -/
def Fits (c : Constant) : Prop :=
  c.textLength ≤ 65535

instance : DecidablePred Fits :=
  fun c => inferInstanceAs (Decidable (c.textLength ≤ 65535))

private theorem reads_index (index : Nat) (make : UInt16 → Constant) (i : UInt16) :
    Reads o (make <$> Reader.within (.constant index) Reader.u2) (beShort i.toNat) (make i) :=
  (Reads.u2_toNat i).within _ |>.map make

private theorem reads_indices (index : Nat) (make : UInt16 → UInt16 → Constant) (i j : UInt16) :
    Reads o (Reader.within (.constant index) do
      let first ← Reader.u2
      let second ← Reader.u2
      pure (make first second)) (beShort i.toNat ++ beShort j.toNat) (make i j) :=
  ((Reads.u2_toNat i).bind (Reads.u2_toNat j).bind_pure).within _

private theorem reads_word (index : Nat) (make : UInt32 → Constant) (bits : UInt32) :
    Reads o (make <$> Reader.within (.constant index) Reader.u4) (beWord bits.toNat)
      (make bits) := by
  have hbits : bits.toNat.toUInt32 = bits := UInt32.ofNat_toNat
  have h := (Reads.u4 (o := o) bits.toNat).within (.constant index) |>.map make
  rwa [hbits] at h

/-- Two words, the higher first, make up a number of sixty-four bits. -/
private theorem long_eq (bits : UInt64) :
    ((bits.toNat >>> 32).toUInt32.toUInt64 <<< (32 : UInt64) |||
      bits.toNat.toUInt32.toUInt64 : UInt64) = bits := by
  have hlt := bits.toNat_lt
  refine UInt64.toNat_inj.mp ?_
  simp only [UInt64.toNat_or, UInt64.toNat_shiftLeft, UInt32.toNat_toUInt64, Nat.toUInt32,
    UInt32.toNat_ofNat', UInt64.reduceToNat, Nat.reduceMod, Nat.shiftLeft_eq,
    Nat.shiftRight_eq_div_pow]
  have hhigh : bits.toNat / 2 ^ 32 % 2 ^ 32 * 2 ^ 32 % 2 ^ 64 = 2 ^ 32 * (bits.toNat / 2 ^ 32) := by
    rw [Nat.mod_eq_of_lt (by omega), Nat.mul_comm, Nat.mod_eq_of_lt (by omega)]
  rw [hhigh, ← Nat.two_pow_add_eq_or_of_lt (Nat.mod_lt _ (by decide))]
  omega

private theorem reads_words (index : Nat) (make : UInt64 → Constant) (bits : UInt64) :
    Reads o (Reader.within (.constant index) do
      let high ← Reader.u4
      let low ← Reader.u4
      pure (make (high.toUInt64 <<< 32 ||| low.toUInt64)))
      (beWord (bits.toNat >>> 32) ++ beWord bits.toNat) (make bits) := by
  refine Reads.within _ ((Reads.u4 (bits.toNat >>> 32)).bind ?_)
  have hlow := (Reads.u4 (o := o + 4) bits.toNat).bind_pure (f := fun low : UInt32 =>
    make ((bits.toNat >>> 32).toUInt32.toUInt64 <<< (32 : UInt64) ||| low.toUInt64))
  rwa [long_eq] at hlow

/-- A constant is read back from the bytes it is written as. -/
theorem reads_encodeConstant (index : Nat) (c : Constant) (h : c.Fits) :
    Reads o (Constant.read index) (encodeConstant c) c := by
  have htag : Reads o (Reader.within (.constantTag index) Reader.u1) [c.tag.toUInt8]
    c.tag.toUInt8 := (Reads.u1 _).within _
  unfold Constant.read encodeConstant
  refine Reads.bind (b := [c.tag.toUInt8]) htag ?_
  cases c with
  | utf8 text =>
    have hlength : text.length ≤ 65535 := h
    refine ((Reads.u2 text.length).within _).bind (Reads.map utf8 (Reads.within _ ?_))
    rw [toNat_toUInt16 hlength]
    exact Reads.take text
  | integer bits => exact reads_word index integer bits
  | float bits => exact reads_word index float bits
  | long bits => exact reads_words index long bits
  | double bits => exact reads_words index double bits
  | classRef i => exact reads_index index classRef i
  | string i => exact reads_index index string i
  | methodType i => exact reads_index index methodType i
  | module i => exact reads_index index module i
  | package i => exact reads_index index package i
  | fieldRef i j => exact reads_indices index fieldRef i j
  | methodRef i j => exact reads_indices index methodRef i j
  | interfaceMethodRef i j => exact reads_indices index interfaceMethodRef i j
  | nameAndType i j => exact reads_indices index nameAndType i j
  | dynamic i j => exact reads_indices index dynamic i j
  | invokeDynamic i j => exact reads_indices index invokeDynamic i j
  | methodHandle kind i =>
    exact ((Reads.u1 kind).bind (Reads.u2_toNat i).bind_pure).within _

end Constant

namespace Pool

/-- The indices that constants take from one on: each constant, and an empty index after a long or a
double. -/
def layout (constants : List Constant) : List (Option Constant) :=
  constants.flatMap fun c => some c :: List.replicate (c.slots - 1) none

/-- A constant fills its slots with itself and then with nothing. -/
theorem layout_cons (c : Constant) (cs : List Constant) :
    layout (c :: cs) = some c :: (List.replicate (c.slots - 1) none ++ layout cs) := rfl

/-- Constants of one slot each are laid out one by one. -/
theorem layout_eq_map {constants : List Constant} (h : ∀ c ∈ constants, c.slots = 1) :
    layout constants = constants.map some := by
  induction constants with
  | nil => rfl
  | cons c cs ih =>
    rw [layout_cons, h c List.mem_cons_self, ih fun c hc => h c (List.mem_cons_of_mem _ hc)]
    rfl

/-- A constant takes one slot or two. -/
theorem slots_eq (c : Constant) : c.slots = 1 ∨ c.slots = 2 := by
  cases c <;> simp [Constant.slots]

/-- The number of indices that constants take. -/
def slotCount (constants : List Constant) : Nat :=
  (constants.map Constant.slots).sum

/-- The slots of a list are those of its first constant and of the others. -/
theorem slotCount_cons (c : Constant) (cs : List Constant) :
    slotCount (c :: cs) = c.slots + slotCount cs := rfl

/-- A layout is as long as its constants take slots. -/
theorem length_layout (constants : List Constant) :
    (layout constants).length = slotCount constants := by
  induction constants with
  | nil => rfl
  | cons c cs ih =>
    rw [layout_cons, slotCount_cons, List.length_cons, List.length_append, List.length_replicate,
      ih]
    rcases slots_eq c with h | h <;> omega

/-- Whether constants fill so many indices. The second index of a long or a double at the end may be
left out. -/
def Fills (n : Nat) (constants : List Constant) : Prop :=
  n = slotCount constants ∨
    (∃ c, constants.getLast? = some c ∧ c.slots = 2) ∧ n + 1 = slotCount constants

/-- No constants fill no slots and nothing else. -/
theorem fills_nil_iff {n : Nat} : Fills n [] ↔ n = 0 := by
  constructor
  · rintro (h | ⟨⟨c, hc, -⟩, -⟩)
    · exact h
    · cases hc
  · exact .inl

/-- The first constant takes all of its indices, unless it is also the last one. -/
theorem fills_cons_iff {n : Nat} {c : Constant} {cs : List Constant} :
    Fills n (c :: cs) ↔
      (cs = [] ∧ c.slots = 2 ∧ n = 1) ∨ (c.slots ≤ n ∧ Fills (n - c.slots) cs) := by
  unfold Fills
  rw [slotCount_cons]
  cases cs with
  | nil =>
    simp only [slotCount, List.map_nil, List.sum_nil, List.getLast?_singleton, Option.some.injEq,
      exists_eq_left', List.getLast?_nil, reduceCtorEq, false_and, exists_false, or_false, true_and]
    rcases slots_eq c with hslots | hslots
    · rw [hslots]
      omega
    · rw [hslots]
      omega
  | cons d ds =>
    have hslots := slots_eq d
    have hfull : n = c.slots + slotCount (d :: ds) ↔
        c.slots ≤ n ∧ n - c.slots = slotCount (d :: ds) := by omega
    have hshort : n + 1 = c.slots + slotCount (d :: ds) ↔
        c.slots ≤ n ∧ n - c.slots + 1 = slotCount (d :: ds) := by
      rw [slotCount_cons]
      omega
    rw [List.getLast?_cons_cons, hfull, hshort, and_left_comm, ← and_or_left]
    simp only [reduceCtorEq, false_and, false_or]

/-- No constant fills no index. -/
theorem fills_zero_iff {constants : List Constant} : Fills 0 constants ↔ constants = [] := by
  cases constants with
  | nil => exact iff_of_true (.inl rfl) rfl
  | cons c cs =>
    rw [fills_cons_iff]
    have hslots := slots_eq c
    simp only [List.cons_ne_nil, iff_false]
    omega

/-- One index is filled by one constant. -/
theorem fills_one_cons_iff {c : Constant} {cs : List Constant} : Fills 1 (c :: cs) ↔ cs = [] := by
  rw [fills_cons_iff]
  rcases slots_eq c with hslots | hslots
  · simp [hslots, fills_zero_iff]
  · simp [hslots]

/-- Of more indices, the first constant takes all of its own. -/
theorem fills_add_two_cons_iff {n : Nat} {c : Constant} {cs : List Constant} :
    Fills (n + 2) (c :: cs) ↔ Fills (n + 2 - c.slots) cs := by
  rw [fills_cons_iff]
  rcases slots_eq c with hslots | hslots <;> simp [hslots]

/-- As many indices as constants fill are read as these constants. -/
theorem reads_readFrom {n : Nat} {constants : List Constant} (hn : Fills n constants)
    (h : ∀ c ∈ constants, c.Fits) (index : Nat) :
    Reads o (readFrom index n) (constants.flatMap encodeConstant) ((layout constants).take n) := by
  induction constants generalizing n index o with
  | nil =>
    obtain rfl := fills_nil_iff.mp hn
    exact Reads.pure []
  | cons c cs ih =>
    obtain ⟨hfits, hrest⟩ := List.forall_mem_cons.mp h
    have hc := Constant.reads_encodeConstant (o := o) index c hfits
    rw [layout_cons, List.flatMap_cons]
    match n with
    | 0 => cases fills_zero_iff.mp hn
    | 1 =>
      obtain rfl := fills_one_cons_iff.mp hn
      rw [List.flatMap_nil, List.append_nil]
      exact hc.bind_pure
    | n + 2 =>
      have hcs := ih (fills_add_two_cons_iff.mp hn) hrest (o := o + (encodeConstant c).length)
      refine hc.bind ?_
      rcases slots_eq c with hslots | hslots
      · rw [hslots] at hcs ⊢
        exact (hcs (index + 1)).bind_pure
      · rw [hslots] at hcs ⊢
        exact (hcs (index + 2)).bind_pure

/-- A pool is read back from its count and its constants, also when the count leaves out the second
index of a long or a double at the end. -/
theorem reads_read_of_fills {n : Nat} {constants : List Constant} (hn : Fills n constants)
    (h : ∀ c ∈ constants, c.Fits) (hcount : n ≤ 65534) :
    Reads o read (beShort (n + 1) ++ constants.flatMap encodeConstant)
      ⟨(none :: (layout constants).take n).toArray⟩ := by
  refine ((Reads.u2 _).within _).bind ?_
  rw [toNat_toUInt16 (Nat.succ_le_succ hcount)]
  exact (reads_readFrom hn h 1).bind_pure

/-- A pool is read back from its count and its constants. -/
theorem reads_read (constants : List Constant) (h : ∀ c ∈ constants, c.Fits)
    (hcount : (layout constants).length ≤ 65534) :
    Reads o read (beShort ((layout constants).length + 1) ++ constants.flatMap encodeConstant)
      ⟨(none :: layout constants).toArray⟩ := by
  have hreads := reads_read_of_fills (o := o) (.inl (length_layout constants)) h hcount
  rwa [List.take_length] at hreads

end Pool

end ReturnAudit.ClassFile
