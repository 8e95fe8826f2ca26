import ReturnAudit.Proofs.ClassFile.PoolLayout
import ReturnAudit.Proofs.Steps

/-!
# How a constant pool grows

A pool under construction only gains constants, and a key keeps the index that it was filed under.
Every constant stands for its key through the indices of other keys that were filed before it. So an
index that was handed out early leads to the same text, class or member in the finished pool, and
asking a later pool again gives the same index and adds nothing.
-/

namespace ReturnAudit.Assembly

open ClassFile (Constant Pool MemberRef)

namespace PoolBuilder

/-- Whether a constant is filed under a key at an index. -/
def Has (p : PoolBuilder) (key : Key) (i : UInt16) : Prop :=
  indexOf? key p.filed p.size = some i

/-- Whether every key keeps its index from one pool to another. -/
def Later (p q : PoolBuilder) : Prop :=
  ∀ key i, p.Has key i → q.Has key i

/-- A pool is later than itself. -/
theorem Later.refl (p : PoolBuilder) : p.Later p :=
  fun _ _ h => h

/-- What is later than a later pool is later. -/
theorem Later.trans {p q r : PoolBuilder} (h : p.Later q) (h' : q.Later r) : p.Later r :=
  fun key i hkey => h' key i (h key i hkey)

/-- What it means for a constant to stand for a key: the indices in the constant are those of the
keys that the key is made up of. -/
def Stands (p : PoolBuilder) (c : Constant) : Key → Prop
  | .utf8 text => c = .utf8 text
  | .classRef name => ∃ i, c = .classRef i ∧ p.Has (.utf8 name) i
  | .string text => ∃ i, c = .string i ∧ p.Has (.utf8 text) i
  | .integer value => c = .integer (BitVec.ofInt 32 value).toNat.toUInt32
  | .nameAndType text => ∃ name descriptor i j, text = name ++ ":" ++ descriptor ∧
      c = .nameAndType i j ∧ p.Has (.utf8 name) i ∧ p.Has (.utf8 descriptor) j
  | .member tag text => ∃ owner typed i j, text = owner ++ "." ++ typed ∧ c.tag = tag ∧
      (c = .fieldRef i j ∨ c = .methodRef i j ∨ c = .interfaceMethodRef i j) ∧
      p.Has (.classRef owner) i ∧ p.Has (.nameAndType typed) j

/-- A constant stands for its key in every later pool. -/
theorem Stands.later {p q : PoolBuilder} {c : Constant} {key : Key} (h : p.Stands c key)
    (hl : p.Later q) : q.Stands c key := by
  cases key with
  | utf8 text => exact h
  | integer value => exact h
  | classRef name =>
    obtain ⟨i, hc, hi⟩ := h
    exact ⟨i, hc, hl _ _ hi⟩
  | string text =>
    obtain ⟨i, hc, hi⟩ := h
    exact ⟨i, hc, hl _ _ hi⟩
  | nameAndType text =>
    obtain ⟨name, descriptor, i, j, htext, hc, hi, hj⟩ := h
    exact ⟨name, descriptor, i, j, htext, hc, hl _ _ hi, hl _ _ hj⟩
  | member tag text =>
    obtain ⟨owner, typed, i, j, htext, htag, hc, hi, hj⟩ := h
    exact ⟨owner, typed, i, j, htext, htag, hc, hl _ _ hi, hl _ _ hj⟩

/-- A pool in which every constant stands for its key. -/
structure Sound (p : PoolBuilder) : Prop where
  /-- The size is the number of constants. -/
  size_eq : p.size = p.filed.length
  /-- Every constant stands for its key. -/
  stands : ∀ e ∈ p.filed, p.Stands e.2 e.1

/-- The empty pool is sound. -/
theorem sound_empty : empty.Sound :=
  ⟨rfl, fun _ he => (List.not_mem_nil he).elim⟩

/-- A sound pool that grew out of another one. -/
structure Grown (p q : PoolBuilder) : Prop where
  /-- Every constant stands for its key. -/
  sound : q.Sound
  /-- Every key keeps its index. -/
  later : p.Later q

/-- A sound pool has grown out of itself. -/
theorem Grown.refl {p : PoolBuilder} (h : p.Sound) : Grown p p :=
  ⟨h, .refl p⟩

/-- What has grown out of a grown pool has grown. -/
theorem Grown.trans {p q r : PoolBuilder} (h : Grown p q) (h' : Grown q r) : Grown p r :=
  ⟨h'.sound, h.later.trans h'.later⟩

/-- Whether a request files a key: it gives the index of the key in a grown pool, and gives it again
in every later pool, which it leaves as it is. -/
def Files (request : StateM PoolBuilder UInt16) (key : Key) : Prop :=
  ∀ p : PoolBuilder, p.Sound → ∃ i q, request p = (i, q) ∧ Grown p q ∧ q.Has key i ∧
    ∀ r, q.Later r → request r = (i, r)

/-- A request that is known to give an index gives that of its key. -/
theorem Files.has {request : StateM PoolBuilder UInt16} {key : Key} (h : Files request key)
    {p q : PoolBuilder} {i : UInt16} (hp : p.Sound) (hrun : request p = (i, q)) : q.Has key i := by
  obtain ⟨_, _, hr, -, hi, -⟩ := h p hp
  rw [hr] at hrun
  cases hrun
  exact hi

/-- Adding what is there gives its index and leaves the pool as it is. -/
theorem add_of_has {p : PoolBuilder} {key : Key} {i : UInt16} (h : p.Has key i) (c : Constant) :
    add key c p = (i, p) := by
  simp only [add, show indexOf? key p.filed p.size = some i from h]

/-- Adding a constant that stands for its key. -/
theorem add_spec {p : PoolBuilder} (hp : p.Sound) {key : Key} {c : Constant}
    (hc : p.Stands c key) :
    ∃ i q, add key c p = (i, q) ∧ Grown p q ∧ q.Has key i := by
  cases hfind : indexOf? key p.filed p.size with
  | some i => exact ⟨i, p, add_of_has hfind c, .refl hp, hfind⟩
  | none =>
    let q : PoolBuilder := ⟨(key, c) :: p.filed, p.size + 1⟩
    have hlater : p.Later q := by
      intro key' i hi
      have hne : key ≠ key' := by
        rintro rfl
        rw [Has, hfind] at hi
        cases hi
      simpa only [Has, q, indexOf?, hne, if_false, Nat.add_sub_cancel] using hi
    have hsound : q.Sound := by
      refine ⟨by simp only [q, List.length_cons, hp.size_eq], ?_⟩
      intro e he
      rcases List.mem_cons.mp he with rfl | he
      · exact hc.later hlater
      · exact (hp.stands e he).later hlater
    refine ⟨(p.size + 1).toUInt16, q, ?_, ⟨hsound, hlater⟩, ?_⟩
    · simp only [add, hfind, q]
    · simp only [Has, q, indexOf?, if_true]

/-- Adding a constant whose standing needs no other key. -/
theorem files_add {key : Key} {c : Constant} (h : ∀ p : PoolBuilder, p.Stands c key) :
    Files (add key c) key := by
  intro p hp
  obtain ⟨i, q, hq, hg, hi⟩ := add_spec hp (h p)
  exact ⟨i, q, hq, hg, hi, fun r hr => add_of_has (hr _ _ hi) _⟩

/-- Adding a constant that holds the index of another key. -/
theorem Files.add {request : StateM PoolBuilder UInt16} {part key : Key} (h : Files request part)
    {make : UInt16 → Constant}
    (hstands : ∀ (p : PoolBuilder) i, p.Has part i → p.Stands (make i) key) :
    Files (do let i ← request; PoolBuilder.add key (make i)) key := by
  intro p hp
  obtain ⟨i, q, hq, hpq, hi, hagain⟩ := h p hp
  obtain ⟨k, r, hr, hqr, hk⟩ := add_spec hpq.sound (hstands q i hi)
  refine ⟨k, r, (run_bind hq).trans hr, hpq.trans hqr, hk, ?_⟩
  intro s hs
  exact (run_bind (hagain s (hqr.later.trans hs))).trans (add_of_has (hs _ _ hk) _)

/-- Adding a constant that holds the indices of two other keys. -/
theorem Files.add₂ {request request' : StateM PoolBuilder UInt16} {part part' key : Key}
    (h : Files request part) (h' : Files request' part') {make : UInt16 → UInt16 → Constant}
    (hstands : ∀ (p : PoolBuilder) i j, p.Has part i → p.Has part' j → p.Stands (make i j) key) :
    Files (do let i ← request; let j ← request'; PoolBuilder.add key (make i j)) key := by
  intro p hp
  obtain ⟨i, q, hq, hpq, hi, hagain⟩ := h p hp
  obtain ⟨j, r, hr, hqr, hj, hagain'⟩ := h' q hpq.sound
  obtain ⟨k, s, hs, hrs, hk⟩ := add_spec hqr.sound (hstands r i j (hqr.later _ _ hi) hj)
  refine ⟨k, s, (run_bind hq).trans ((run_bind hr).trans hs), (hpq.trans hqr).trans hrs, hk, ?_⟩
  intro t ht
  have hrt : r.Later t := hrs.later.trans ht
  rw [run_bind (hagain t (hqr.later.trans hrt)), run_bind (hagain' t hrt)]
  exact add_of_has (ht _ _ hk) _

/-- A text is filed under itself. -/
theorem files_utf8 (text : Bytes) : Files (utf8 text) (.utf8 text) :=
  files_add fun _ => rfl

/-- A class is filed under its name with slashes. -/
theorem files_classRef (name : Bytes) :
    Files (classRef name) (.classRef (Descriptor.slashed name)) :=
  (files_utf8 _).add fun _ i hi => ⟨i, rfl, hi⟩

/-- A constant text is filed under itself. -/
theorem files_string (text : Bytes) : Files (string text) (.string text) :=
  (files_utf8 _).add fun _ i hi => ⟨i, rfl, hi⟩

/-- A number is filed under itself. -/
theorem files_integer (value : Int) : Files (integer value) (.integer value) :=
  files_add fun _ => rfl

/-- A name with a descriptor is filed under the text of both with a colon in between. -/
theorem files_nameAndType (name descriptor : Bytes) :
    Files (nameAndType name descriptor) (.nameAndType (name ++ ":" ++ descriptor)) :=
  (files_utf8 name).add₂ (files_utf8 descriptor) fun _ i j hi hj =>
    ⟨name, descriptor, i, j, rfl, rfl, hi, hj⟩

/-- The kinds of constants that name a member of a class. -/
def NamesMember (make : UInt16 → UInt16 → Constant) : Prop :=
  make = .fieldRef ∨ make = .methodRef ∨ make = .interfaceMethodRef

/-- The constant of a member stands for the text of its parts, when the indices in it are those of
its owner and of its name with the descriptor. -/
theorem stands_member {make : UInt16 → UInt16 → Constant} (hmake : NamesMember make)
    (owner name descriptor : Bytes) {p : PoolBuilder} {i j : UInt16}
    (hi : p.Has (.classRef (Descriptor.slashed owner)) i)
    (hj : p.Has (.nameAndType (name ++ ":" ++ descriptor)) j) :
    p.Stands (make i j) (.member (make 0 0).tag
      (Descriptor.slashed owner ++ "." ++ name ++ ":" ++ descriptor)) := by
  refine ⟨Descriptor.slashed owner, name ++ ":" ++ descriptor, i, j, ?_, ?_, ?_, hi, hj⟩
  · simp only [List.append_assoc]
  · rcases hmake with rfl | rfl | rfl <;> rfl
  · rcases hmake with rfl | rfl | rfl <;> simp

/-- A member is filed under the text of its parts. -/
theorem files_member {make : UInt16 → UInt16 → Constant} (hmake : NamesMember make)
    (owner name descriptor : Bytes) :
    Files (member make owner name descriptor) (.member (make 0 0).tag
      (Descriptor.slashed owner ++ "." ++ name ++ ":" ++ descriptor)) :=
  (files_classRef owner).add₂ (files_nameAndType name descriptor) fun _ _ _ hi hj =>
    stands_member hmake owner name descriptor hi hj

end PoolBuilder

end ReturnAudit.Assembly
