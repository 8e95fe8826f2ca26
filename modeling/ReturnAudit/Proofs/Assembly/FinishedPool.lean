import ReturnAudit.Proofs.Assembly.PoolGrowth
import ReturnAudit.Proofs.ClassFile.PoolLookups

/-!
# The finished constant pool

A pool that was built and written is read as the constants at the indices they were filed under. In
it every index that was handed out on the way leads to what it was asked for.
-/

namespace ReturnAudit.Assembly.PoolBuilder

open ClassFile (Constant Pool MemberRef ReadError)

/-- The pool of a class file to which the constants are written. -/
def finished (p : PoolBuilder) : Pool :=
  ⟨(none :: Pool.layout p.constants).toArray⟩

/-- Whether the indices of a pool under construction lead to what they were asked for. -/
structure Resolves (cp : Pool) (p : PoolBuilder) : Prop where
  /-- A text is found at its index. -/
  utf8 : ∀ {text i}, p.Has (.utf8 text) i → cp.utf8 i = .ok text
  /-- A class is found at its index. -/
  className : ∀ {name i}, p.Has (.classRef name) i → cp.className i = .ok name
  /-- A member of a class is found at its index. -/
  member : ∀ {tag text i}, p.Has (.member tag text) i →
    ∃ owner name descriptor, text = owner ++ "." ++ (name ++ ":" ++ descriptor) ∧
      cp.member i = .ok ⟨owner, name, descriptor, tag = 11⟩

/-- What a pool resolves, it resolved before it grew. -/
theorem Resolves.of_later {cp : Pool} {p q : PoolBuilder} (h : Resolves cp q) (hl : p.Later q) :
    Resolves cp p :=
  ⟨fun hi => h.utf8 (hl _ _ hi), fun hi => h.className (hl _ _ hi),
    fun hi => h.member (hl _ _ hi)⟩

/-- A constant that stands for a key takes one slot. -/
theorem Stands.slots_eq {p : PoolBuilder} {c : Constant} {key : Key} (h : p.Stands c key) :
    c.slots = 1 := by
  cases key with
  | utf8 text => rw [show c = _ from h]; rfl
  | integer value => rw [show c = _ from h]; rfl
  | classRef name => obtain ⟨i, rfl, _⟩ := h; rfl
  | string text => obtain ⟨i, rfl, _⟩ := h; rfl
  | nameAndType text => obtain ⟨_, _, i, j, _, rfl, _⟩ := h; rfl
  | member tag text => obtain ⟨_, _, i, j, _, _, rfl | rfl | rfl, _⟩ := h <;> rfl

/-- Every constant of a pool under construction takes one index. -/
theorem layout_constants {p : PoolBuilder} (hp : p.Sound) :
    Pool.layout p.constants = p.constants.map some := by
  refine Pool.layout_eq_map ?_
  intro c hc
  obtain ⟨e, he, rfl⟩ := List.mem_map.mp hc
  exact (hp.stands e (List.mem_reverse.mp he)).slots_eq

/-- An index counts the constants from the oldest on. -/
private theorem getElem?_of_indexOf? {key : Key} {filed : List (Key × Constant)} {i : UInt16}
    (h : indexOf? key filed filed.length = some i) (hsize : filed.length ≤ 65534) :
    ∃ c, (key, c) ∈ filed ∧ i ≠ 0 ∧ (none :: (filed.reverse.map Prod.snd).map some)[i.toNat]? =
      some (some c) := by
  induction filed with
  | nil => cases h
  | cons e filed ih =>
    rw [List.length_cons] at hsize
    rw [List.reverse_cons, List.map_append, List.map_append, List.map_singleton,
      List.map_singleton]
    simp only [indexOf?, List.length_cons, Nat.add_sub_cancel] at h
    by_cases hkey : e.1 = key
    · rw [if_pos hkey] at h
      obtain rfl := Option.some.inj h
      have htoNat : (filed.length + 1).toUInt16.toNat = filed.length + 1 :=
        ClassFile.toNat_toUInt16 (by omega)
      refine ⟨e.2, ?_, ?_, ?_⟩
      · rw [← hkey]
        exact List.mem_cons_self
      · intro hzero
        rw [hzero] at htoNat
        exact absurd htoNat (by simp)
      · rw [htoNat, List.getElem?_cons_succ, List.getElem?_append_right (by simp)]
        simp
    · rw [if_neg hkey] at h
      obtain ⟨c, hmem, hne, hget⟩ := ih h (by omega)
      refine ⟨c, List.mem_cons_of_mem _ hmem, hne, ?_⟩
      obtain ⟨hlt, _⟩ := List.getElem?_eq_some_iff.mp hget
      rw [← List.cons_append, List.getElem?_append_left hlt]
      exact hget

/-- In a finished pool a key leads to a constant that is filed under it. -/
theorem exists_filed {p : PoolBuilder} (hp : p.Sound) (hsize : p.size ≤ 65534) {key : Key}
    {i : UInt16} (h : p.Has key i) :
    ∃ c, (key, c) ∈ p.filed ∧ p.finished.Holds i c := by
  rw [Has, hp.size_eq] at h
  rw [hp.size_eq] at hsize
  obtain ⟨c, hmem, hne, hget⟩ := getElem?_of_indexOf? h hsize
  refine ⟨c, hmem, hne, ?_⟩
  rw [finished, layout_constants hp, List.getElem?_toArray]
  exact hget

/-- In a finished pool a key leads to a constant that stands for it. -/
theorem exists_stands {p : PoolBuilder} (hp : p.Sound) (hsize : p.size ≤ 65534) {key : Key}
    {i : UInt16} (h : p.Has key i) :
    ∃ c, p.Stands c key ∧ p.finished.Holds i c := by
  obtain ⟨c, hmem, hholds⟩ := exists_filed hp hsize h
  exact ⟨c, hp.stands _ hmem, hholds⟩

section

variable {p : PoolBuilder} (hp : p.Sound) (hsize : p.size ≤ 65534)
include hp hsize

/-- A text is found at its index. -/
theorem holds_utf8 {text : Bytes} {i : UInt16} (h : p.Has (.utf8 text) i) :
    p.finished.Holds i (.utf8 text) := by
  obtain ⟨c, hc, hholds⟩ := exists_stands hp hsize h
  obtain rfl : c = .utf8 text := hc
  exact hholds

/-- A class is found at its index. -/
theorem classAt_classRef {name : Bytes} {i : UInt16} (h : p.Has (.classRef name) i) :
    p.finished.ClassAt i name := by
  obtain ⟨c, ⟨j, rfl, hj⟩, hholds⟩ := exists_stands hp hsize h
  exact ⟨j, hholds, holds_utf8 hp hsize hj⟩

/-- At the index of a name with a descriptor some name with a descriptor is found that makes up the
same text. -/
theorem exists_typedNameAt {text : Bytes} {i : UInt16} (h : p.Has (.nameAndType text) i) :
    ∃ name descriptor, text = name ++ ":" ++ descriptor ∧
      p.finished.TypedNameAt i name descriptor := by
  obtain ⟨c, ⟨name, descriptor, j, k, htext, rfl, hj, hk⟩, hholds⟩ := exists_stands hp hsize h
  exact ⟨name, descriptor, htext, j, k, hholds, holds_utf8 hp hsize hj, holds_utf8 hp hsize hk⟩

/-- A member is found with its class and with what its name and descriptor are found to be. -/
theorem exists_member {tag : Nat} {text : Bytes} {i : UInt16} (h : p.Has (.member tag text) i) :
    ∃ owner typed j k, text = owner ++ "." ++ typed ∧ p.Has (.classRef owner) j ∧
      p.Has (.nameAndType typed) k ∧ ∀ name descriptor,
        p.finished.TypedNameAt k name descriptor →
          p.finished.MemberAt i ⟨owner, name, descriptor, tag = 11⟩ := by
  obtain ⟨c, ⟨owner, typed, j, k, htext, rfl, hc, hj, hk⟩, hholds⟩ := exists_stands hp hsize h
  refine ⟨owner, typed, j, k, htext, hj, hk, fun name descriptor hnt => ?_⟩
  have hclass := classAt_classRef hp hsize hj
  rcases hc with rfl | rfl | rfl
  · exact .field hholds hclass hnt
  · exact .method hholds hclass hnt
  · exact .interfaceMethod hholds hclass hnt

/-- At the index of a member some member is found that makes up the same text. -/
theorem exists_memberAt {tag : Nat} {text : Bytes} {i : UInt16} (h : p.Has (.member tag text) i) :
    ∃ owner name descriptor, text = owner ++ "." ++ (name ++ ":" ++ descriptor) ∧
      p.finished.MemberAt i ⟨owner, name, descriptor, tag = 11⟩ := by
  obtain ⟨owner, typed, j, k, htext, -, hk, hmember⟩ := exists_member hp hsize h
  obtain ⟨name, descriptor, htyped, hnt⟩ := exists_typedNameAt hp hsize hk
  exact ⟨owner, name, descriptor, htyped ▸ htext, hmember name descriptor hnt⟩

/-- A finished pool resolves every index that was handed out. -/
theorem resolves_finished : Resolves p.finished p where
  utf8 h := Pool.utf8_eq_ok_iff.mpr (holds_utf8 hp hsize h)
  className h := Pool.className_eq_ok_iff.mpr (classAt_classRef hp hsize h)
  member h := by
    obtain ⟨owner, name, descriptor, htext, hmember⟩ := exists_memberAt hp hsize h
    exact ⟨owner, name, descriptor, htext, Pool.member_eq_ok_iff.mpr hmember⟩

end

/-- A finished pool is read back from its count and its constants. -/
theorem reads_finished {o : Nat} {p : PoolBuilder} (hp : p.Sound) (hsize : p.size ≤ 65534)
    (htexts : ∀ c ∈ p.constants, c.Fits) :
    ClassFile.Reads o Pool.read (beShort (p.size + 1) ++ p.constants.flatMap encodeConstant)
      p.finished := by
  have hlength : (Pool.layout p.constants).length = p.size := by
    rw [layout_constants hp, hp.size_eq]
    simp only [constants, List.length_map, List.length_reverse]
  rw [← hlength]
  exact Pool.reads_read p.constants htexts (hlength ▸ hsize)

end ReturnAudit.Assembly.PoolBuilder
