import ReturnAudit.Proofs.ClassFile.PoolLayout
import ReturnAudit.Proofs.ClassFile.PoolLookups
import ReturnAudit.Proofs.ClassFile.TakenBytes

/-!
# One way to write a constant pool

A pool that is read is the layout of exactly one list of constants, and it is read from the bytes
that these constants are written as. The bytes of the constants and the indices they take advance
independently, so both are followed along the list.
-/

namespace ReturnAudit.ClassFile

open Assembly (beShort beWord encodeConstant)

/-- The eight bytes that a number of sixty-four bits is read from are those it is written as. -/
theorem beWords_toNat (high low : UInt32) :
    let bits : UInt64 := high.toUInt64 <<< 32 ||| low.toUInt64
    beWord (bits.toNat >>> 32) ++ beWord bits.toNat = beWord high.toNat ++ beWord low.toNat := by
  intro bits
  have hhigh := high.toNat_lt
  have hlow := low.toNat_lt
  have hvalue : bits.toNat = 4294967296 * high.toNat + low.toNat := by
    have hshift : high.toNat * 2 ^ 32 % 2 ^ 64 = 2 ^ 32 * high.toNat := by omega
    simp only [bits, UInt64.toNat_or, UInt64.toNat_shiftLeft, UInt32.toNat_toUInt64,
      UInt64.reduceToNat, Nat.reduceMod, Nat.shiftLeft_eq]
    rw [hshift, ← Nat.two_pow_add_eq_or_of_lt hlow]
  have hdiv : (4294967296 * high.toNat + low.toNat) >>> 32 = high.toNat := by
    rw [Nat.shiftRight_eq_div_pow]
    omega
  rw [hvalue, hdiv, beWord_add]

namespace Constant

section

variable {tag : UInt8} {n : Nat}

private theorem toUInt8_toNat (v : UInt8) : v.toNat.toUInt8 = v :=
  UInt8.ofNat_toNat

private theorem takes_index (index : Nat) {make : UInt16 → Constant} (htag : tag.toNat = n)
    (h : ∀ i, encodeConstant (make i) = n.toUInt8 :: beShort i.toNat ∧ (make i).Fits) :
    Takes (make <$> Reader.within (.constant index) Reader.u2) fun c b =>
      tag :: b = encodeConstant c ∧ c.Fits := by
  refine .map make ((Takes.u2.within _).mono ?_)
  rintro i b rfl
  obtain ⟨hencode, hfits⟩ := h i
  exact ⟨by rw [hencode, ← htag, toUInt8_toNat], hfits⟩

private theorem takes_indices (index : Nat) {make : UInt16 → UInt16 → Constant}
    (htag : tag.toNat = n) (h : ∀ i j, encodeConstant (make i j) =
      n.toUInt8 :: (beShort i.toNat ++ beShort j.toNat) ∧ (make i j).Fits) :
    Takes (Reader.within (.constant index) do
      let first ← Reader.u2
      let second ← Reader.u2
      pure (make first second)) fun c b => tag :: b = encodeConstant c ∧ c.Fits := by
  refine .within _ (Takes.u2.bind fun i b hb => Takes.u2.bind fun j b' hb' => .pure ?_)
  obtain ⟨hencode, hfits⟩ := h i j
  exact ⟨by rw [hencode, hb, hb', List.append_nil, ← htag, toUInt8_toNat], hfits⟩

private theorem takes_word (index : Nat) {make : UInt32 → Constant} (htag : tag.toNat = n)
    (h : ∀ bits, encodeConstant (make bits) = n.toUInt8 :: beWord bits.toNat ∧ (make bits).Fits) :
    Takes (make <$> Reader.within (.constant index) Reader.u4) fun c b =>
      tag :: b = encodeConstant c ∧ c.Fits := by
  refine .map make ((Takes.u4.within _).mono ?_)
  rintro bits b rfl
  obtain ⟨hencode, hfits⟩ := h bits
  exact ⟨by rw [hencode, ← htag, toUInt8_toNat], hfits⟩

private theorem takes_words (index : Nat) {make : UInt64 → Constant} (htag : tag.toNat = n)
    (h : ∀ bits, encodeConstant (make bits) =
      n.toUInt8 :: (beWord (bits.toNat >>> 32) ++ beWord bits.toNat) ∧ (make bits).Fits) :
    Takes (Reader.within (.constant index) do
      let high ← Reader.u4
      let low ← Reader.u4
      pure (make (high.toUInt64 <<< 32 ||| low.toUInt64))) fun c b =>
        tag :: b = encodeConstant c ∧ c.Fits := by
  refine .within _ (Takes.u4.bind fun high b hb => Takes.u4.bind fun low b' hb' => .pure ?_)
  obtain ⟨hencode, hfits⟩ := h (high.toUInt64 <<< 32 ||| low.toUInt64)
  exact ⟨by rw [hencode, beWords_toNat, hb, hb', List.append_nil, ← htag, toUInt8_toNat], hfits⟩

end

/-- A constant that is read has been taken from the bytes it is written as. -/
theorem takes_read (index : Nat) :
    Takes (Constant.read index) fun c b => b = encodeConstant c ∧ c.Fits := by
  -- only texts have a length that has to fit
  have hfits : ∀ {c : Constant}, c.textLength = 0 → c.Fits := fun h =>
    h.le.trans (Nat.zero_le 65535)
  unfold Constant.read
  refine (Takes.u1.within _).bind fun tag b hb => ?_
  subst hb
  dsimp only
  split
  · rename_i htag
    refine (Takes.u2.within _).bind fun length b hb => .map utf8 (((Takes.take _).within _).mono ?_)
    rintro _ text ⟨rfl, hlength⟩
    have hmax := length.toNat_lt
    refine ⟨?_, show text.length ≤ 65535 by omega⟩
    rw [hb, ← hlength, ← toUInt8_toNat tag, htag]
    rfl
  · exact takes_word index ‹_› fun bits => ⟨rfl, hfits rfl⟩
  · exact takes_word index ‹_› fun bits => ⟨rfl, hfits rfl⟩
  · exact takes_words index ‹_› fun bits => ⟨rfl, hfits rfl⟩
  · exact takes_words index ‹_› fun bits => ⟨rfl, hfits rfl⟩
  · exact takes_index index ‹_› fun i => ⟨rfl, hfits rfl⟩
  · exact takes_index index ‹_› fun i => ⟨rfl, hfits rfl⟩
  · exact takes_indices index ‹_› fun i j => ⟨rfl, hfits rfl⟩
  · exact takes_indices index ‹_› fun i j => ⟨rfl, hfits rfl⟩
  · exact takes_indices index ‹_› fun i j => ⟨rfl, hfits rfl⟩
  · exact takes_indices index ‹_› fun i j => ⟨rfl, hfits rfl⟩
  · rename_i htag
    refine .within _ (Takes.u1.bind fun kind b hb => Takes.u2.bind fun i b' hb' => .pure ?_)
    refine ⟨?_, hfits rfl⟩
    rw [hb, hb', List.append_nil, ← toUInt8_toNat tag, htag]
    rfl
  · exact takes_index index ‹_› fun i => ⟨rfl, hfits rfl⟩
  · exact takes_indices index ‹_› fun i j => ⟨rfl, hfits rfl⟩
  · exact takes_indices index ‹_› fun i j => ⟨rfl, hfits rfl⟩
  · exact takes_index index ‹_› fun i => ⟨rfl, hfits rfl⟩
  · exact takes_index index ‹_› fun i => ⟨rfl, hfits rfl⟩
  · exact .fail _

end Constant

namespace Pool

/-- Indices that are read are filled by constants, and the bytes that are taken are those of these
constants. -/
theorem takes_readFrom (index n : Nat) :
    Takes (readFrom index n) fun entries b => ∃ constants, Fills n constants ∧
      (∀ c ∈ constants, c.Fits) ∧ b = constants.flatMap encodeConstant ∧
        entries = (layout constants).take n := by
  fun_induction readFrom index n with
  | case1 index => exact .pure ⟨[], fills_nil_iff.mpr rfl, by simp, rfl, rfl⟩
  | case2 index =>
    refine (Constant.takes_read index).bind fun c b hb => .pure ?_
    obtain ⟨rfl, hfits⟩ := hb
    refine ⟨[c], fills_one_cons_iff.mpr rfl, by simpa using hfits, by simp, rfl⟩
  | case3 index count ihTwo ihOne =>
    refine (Constant.takes_read index).bind fun c b hb => ?_
    obtain ⟨rfl, hfits⟩ := hb
    split
    · rename_i hslots
      refine ihTwo.bind fun rest b hb => .pure ?_
      obtain ⟨constants, hfills, hall, rfl, rfl⟩ := hb
      refine ⟨c :: constants, ?_, List.forall_mem_cons.mpr ⟨hfits, hall⟩, by simp, ?_⟩
      · rw [fills_add_two_cons_iff, hslots]
        exact hfills
      · rw [layout_cons, hslots]
        rfl
    · rename_i hslots
      have hone : c.slots = 1 := (slots_eq c).resolve_right hslots
      refine ihOne.bind fun rest b hb => .pure ?_
      obtain ⟨constants, hfills, hall, rfl, rfl⟩ := hb
      refine ⟨c :: constants, ?_, List.forall_mem_cons.mpr ⟨hfits, hall⟩, by simp, ?_⟩
      · rw [fills_add_two_cons_iff, hone]
        exact hfills
      · rw [layout_cons, hone]
        rfl

/-- The constants that fill indices are those that are found there. -/
theorem reduceOption_take_layout {n : Nat} {constants : List Constant} (h : Fills n constants) :
    ((layout constants).take n).reduceOption = constants := by
  induction constants generalizing n with
  | nil => rw [layout, List.flatMap_nil, List.take_nil]; rfl
  | cons c cs ih =>
    rw [layout_cons]
    match n with
    | 0 => cases fills_zero_iff.mp h
    | 1 =>
      obtain rfl := fills_one_cons_iff.mp h
      rfl
    | n + 2 =>
      have hcs := ih (fills_add_two_cons_iff.mp h)
      rcases slots_eq c with hslots | hslots
      · rw [hslots] at hcs ⊢
        exact congrArg (c :: ·) hcs
      · rw [hslots] at hcs ⊢
        exact congrArg (c :: ·) hcs

/-- A constant among others, with those before it and those behind it. -/
private theorem eq_append_cons {k : Nat} {c : Constant} {constants : List Constant}
    (h : constants[k]? = some c) :
    constants = constants.take k ++ c :: constants.drop (k + 1) := by
  obtain ⟨hk, hc⟩ := List.getElem?_eq_some_iff.mp h
  rw [← hc, List.cons_getElem_drop_succ, List.take_append_drop]

/-- The slots of two lists of constants follow one another. -/
theorem layout_append (cs ds : List Constant) : layout (cs ++ ds) = layout cs ++ layout ds :=
  List.flatMap_append

/-- A constant stands behind the indices of those before it. -/
theorem drop_layout {k : Nat} {c : Constant} {constants : List Constant}
    (h : constants[k]? = some c) :
    (layout constants).drop (slotCount (constants.take k)) =
      some c :: (List.replicate (c.slots - 1) none ++ layout (constants.drop (k + 1))) := by
  have hlayout : layout constants = layout (constants.take k) ++
      layout (c :: constants.drop (k + 1)) := by
    rw [← layout_append, ← eq_append_cons h]
  rw [hlayout, ← length_layout, List.drop_left, layout_cons]

/-- The first index of a constant is among those that are filled. -/
theorem slotCount_take_lt {n k : Nat} {c : Constant} {constants : List Constant}
    (hn : Fills n constants) (h : constants[k]? = some c) : slotCount (constants.take k) < n := by
  induction constants generalizing n k with
  | nil => cases h
  | cons d ds ih =>
    cases k with
    | zero =>
      refine Nat.pos_of_ne_zero ?_
      rintro rfl
      cases fills_zero_iff.mp hn
    | succ k =>
      have hk : ds[k]? = some c := h
      rcases fills_cons_iff.mp hn with ⟨rfl, -, -⟩ | ⟨hslots, hds⟩
      · cases hk
      · have hlt := ih hds hk
        rw [List.take_succ_cons, slotCount_cons]
        omega

/-- Whether a count may stand in front of constants: one more than the number of indices they take,
or just this number if the last one is a long or a double. -/
def Announces (count : Nat) (constants : List Constant) : Prop :=
  count = 1 + slotCount constants ∨
    (∃ c, constants.getLast? = some c ∧ c.slots = 2) ∧ count = slotCount constants

/-- The announced count is one more than the number of slots. -/
theorem announces_succ_iff {n : Nat} {constants : List Constant} :
    Announces (n + 1) constants ↔ Fills n constants := by
  unfold Announces Fills
  have h : n + 1 = 1 + slotCount constants ↔ n = slotCount constants := by omega
  rw [h]

/-- An announced count is never zero. -/
theorem Announces.exists_fills {count : Nat} {constants : List Constant}
    (h : Announces count constants) : ∃ n, count = n + 1 ∧ Fills n constants := by
  cases count with
  | succ n => exact ⟨n, rfl, announces_succ_iff.mp h⟩
  | zero =>
    -- constants of which the last takes two indices take some
    rcases h with h | ⟨⟨c, hlast, -⟩, h⟩
    · omega
    · cases constants with
      | nil => cases hlast
      | cons d ds =>
        have hslots := slots_eq d
        rw [slotCount_cons] at h
        omega

/-- The bytes of a pool: its count, then its constants. -/
def poolText (count : Nat) (constants : List Constant) : Bytes :=
  beShort count ++ constants.flatMap encodeConstant

/-- Whether an index is of no use: whatever is looked for there, nothing is found. -/
structure FailsAt (pool : Pool) (index : UInt16) : Prop where
  get : ∀ wanted, ∃ e, pool.get index wanted = .error e
  utf8 : ∃ e, pool.utf8 index = .error e
  className : ∃ e, pool.className index = .error e
  nameAndType : ∃ e, pool.nameAndType index = .error e
  member : ∃ e, pool.member index = .error e

/-- Nothing is found where no constant stands. -/
theorem failsAt_of_not_holds {pool : Pool} {index : UInt16} (h : ∀ c, ¬ pool.Holds index c) :
    pool.FailsAt index := by
  have hget : ∀ wanted, ∃ e, pool.get index wanted = .error e := by
    intro wanted
    cases hresult : pool.get index wanted with
    | error e => exact ⟨e, rfl⟩
    | ok c => exact absurd (get_eq_ok_iff.mp hresult).1 (h c)
  -- each look-up starts with the constant at the index
  obtain ⟨e₁, h₁⟩ := hget [1]
  obtain ⟨e₂, h₂⟩ := hget [7]
  obtain ⟨e₃, h₃⟩ := hget [12]
  obtain ⟨e₄, h₄⟩ := hget memberTags
  exact ⟨hget, ⟨e₁, by rw [Pool.utf8, h₁]; rfl⟩, ⟨e₂, by rw [Pool.className, h₂]; rfl⟩,
    ⟨e₃, by rw [Pool.nameAndType, h₃]; rfl⟩, ⟨e₄, by rw [Pool.member, h₄]; rfl⟩⟩

/-- Whether a pool holds constants in order, each behind the indices of those before it. -/
structure Lays (count : Nat) (constants : List Constant) (pool : Pool) : Prop where
  /-- There are as many indices as are announced. -/
  size_eq : pool.size = count
  /-- Each constant stands behind those before it. -/
  constant : ∀ k c, constants[k]? = some c →
    pool.entries[1 + slotCount (constants.take k)]? = some (some c)
  /-- Nothing is found at index zero. -/
  zero : pool.FailsAt 0
  /-- Nothing is found behind a long or a double. -/
  second : ∀ k c, constants[k]? = some c → c.slots = 2 → ∀ index : UInt16,
    index.toNat = 1 + slotCount (constants.take k) + 1 → pool.FailsAt index
  /-- Nothing is found beyond the announced indices. -/
  beyond : ∀ index : UInt16, count ≤ index.toNat → pool.FailsAt index

/-- Constants that fill indices are laid out there. -/
theorem lays_of_fills {n : Nat} {constants : List Constant} (h : Fills n constants) :
    Lays (n + 1) constants ⟨(none :: (layout constants).take n).toArray⟩ where
  size_eq := by
    have hle : n ≤ (layout constants).length := by
      rw [length_layout]
      rcases h with h | h <;> omega
    simp [size, hle]
  constant := by
    intro k c hk
    have hlt := slotCount_take_lt h hk
    have hhead := congrArg List.head? (drop_layout hk)
    rw [List.head?_drop, List.head?_cons] at hhead
    rw [List.getElem?_toArray, Nat.add_comm, List.getElem?_cons_succ,
      List.getElem?_take_of_lt hlt, hhead]
  zero := failsAt_of_not_holds fun c hholds => hholds.1 rfl
  second := by
    intro k c hk hslots index hindex
    refine failsAt_of_not_holds fun d hd => ?_
    have hentry := hd.2
    -- the index is either the last one left out or the empty one behind the constant
    rw [List.getElem?_toArray, hindex, List.getElem?_cons_succ, Nat.add_comm,
      List.getElem?_take] at hentry
    split at hentry
    · rw [← List.getElem?_drop, drop_layout hk, hslots] at hentry
      cases hentry
    · cases hentry
  beyond := by
    intro index hindex
    refine failsAt_of_not_holds fun d hd => ?_
    have hentry := hd.2
    rw [List.getElem?_toArray, List.getElem?_eq_none] at hentry
    · cases hentry
    · rw [List.length_cons, List.length_take]
      omega

/-- A pool that is read with a count of one or more has been taken from the bytes of constants that
the count announces. -/
theorem takes_read : Takes Pool.read fun pool b => 1 ≤ pool.size →
    ∃ constants count, Announces count constants ∧ count ≤ 65535 ∧
      (∀ c ∈ constants, c.Fits) ∧ b = poolText count constants := by
  refine (Takes.u2.within _).bind fun count b hb => ?_
  subst hb
  have hmax := count.toNat_lt
  split
  · exact .pure fun hsize => absurd hsize (by decide)
  · rename_i n hcount
    refine (takes_readFrom 1 n).bind fun entries b hb => .pure fun _ => ?_
    obtain ⟨constants, hfills, hfits, rfl, -⟩ := hb
    refine ⟨constants, count.toNat, ?_, by omega, hfits, by rw [List.append_nil]; rfl⟩
    rw [hcount]
    exact announces_succ_iff.mpr hfills

/-- The constants that a pool was written from are those it holds. -/
theorem eq_reduceOption_of_read {c c' : Cursor} {pool : Pool} {count : Nat}
    {constants : List Constant} (hread : Pool.read c = .ok (pool, c'))
    (hcount : Announces count constants) (hmax : count ≤ 65535) (hfits : ∀ k ∈ constants, k.Fits)
    (htext : c.rest = poolText count constants ++ c'.rest) :
    constants = pool.entries.toList.reduceOption := by
  obtain ⟨n, rfl, hfills⟩ := hcount.exists_fills
  have hreads := reads_read_of_fills (o := c.offset) hfills hfits (Nat.le_of_succ_le_succ hmax)
    c'.rest
  have hrun : Pool.read ⟨c.offset, poolText (n + 1) constants ++ c'.rest⟩ = .ok (pool, c') :=
    htext ▸ hread
  have hpool : pool = ⟨(none :: (layout constants).take n).toArray⟩ :=
    congrArg Prod.fst (Except.ok.inj (hrun.symm.trans hreads))
  rw [hpool]
  exact (reduceOption_take_layout hfills).symm

/-- Reading and laying out constants are inverse to each other: whatever list of constants is
written behind a count that announces it is read back in order, whatever follows, and every pool
that is read with a count of one or more has been written so, from one list only. -/
theorem read_lays_out :
    (∀ count constants, Announces count constants → count ≤ 65535 →
      (∀ c ∈ constants, c.Fits) → ∃ pool, (∀ o, Reads o Pool.read (poolText count constants) pool) ∧
        Lays count constants pool) ∧
    ∀ c pool c', Pool.read c = .ok (pool, c') → 1 ≤ pool.size →
      ∃! constants, ∃ count, Announces count constants ∧ count ≤ 65535 ∧
        (∀ k ∈ constants, k.Fits) ∧ c.rest = poolText count constants ++ c'.rest := by
  constructor
  · intro count constants hcount hmax hfits
    obtain ⟨n, rfl, hfills⟩ := hcount.exists_fills
    exact ⟨_, fun o => reads_read_of_fills hfills hfits (Nat.le_of_succ_le_succ hmax),
      lays_of_fills hfills⟩
  · intro c pool c' hread hsize
    obtain ⟨b, hrest, -, hb⟩ := takes_read c pool c' hread
    obtain ⟨constants, count, hcount, hmax, hfits, rfl⟩ := hb hsize
    refine ⟨constants, ⟨count, hcount, hmax, hfits, hrest⟩, ?_⟩
    rintro others ⟨count', hcount', hmax', hfits', hrest'⟩
    rw [eq_reduceOption_of_read hread hcount' hmax' hfits' hrest',
      ← eq_reduceOption_of_read hread hcount hmax hfits hrest]

/-- A long in front of a text and a double at the end, whose second index is not announced. -/
theorem read_lays_out_long_double :
    let constants : List Constant := [.long 1, .utf8 "A", .double 0]
    (∃ pool, (∀ o, Reads o Pool.read (poolText 5 constants) pool) ∧ Lays 5 constants pool) ∧
      ∃! others, ∃ count, Announces count others ∧ count ≤ 65535 ∧ (∀ c ∈ others, c.Fits) ∧
        poolText 5 constants = poolText count others ++ [] := by
  intro constants
  have hcount : Announces 5 constants := .inr ⟨⟨.double 0, rfl, rfl⟩, rfl⟩
  obtain ⟨pool, hreads, hlays⟩ := read_lays_out.1 5 constants hcount (by decide) (by decide)
  have hread := hreads 0 []
  rw [List.append_nil] at hread
  exact ⟨⟨pool, hreads, hlays⟩, read_lays_out.2 _ pool _ hread (by rw [hlays.size_eq]; decide)⟩

end Pool

end ReturnAudit.ClassFile
