import ReturnAudit.Assembly.Encode
import ReturnAudit.Proofs.Assembly.FinishedPool

/-!
# What encoders write

An encoder hands out indices while the pool grows, so what its bytes mean is settled only by a pool
that resolves these indices. Encoders that are put together write what their parts write; a part
that was written early keeps its meaning, because a pool that resolves the later indices resolves
the earlier ones.
-/

namespace ReturnAudit.Assembly

open ClassFile (Pool Reads ReadsEach Reader Attribute readAttribute)
open PoolBuilder (Files Grown Resolves)

variable {α β : Type}

/-- Whether an encoder writes something that has a meaning in every pool that resolves the indices
handed out. -/
def Writes (e : Encoder α) (means : Pool → α → Prop) : Prop :=
  ∀ p : PoolBuilder, p.Sound → ∃ a q, e p = (a, q) ∧ Grown p q ∧ ∀ cp, Resolves cp q → means cp a

namespace Writes

/-- What is written without a step has the meaning that it has in every pool. -/
theorem pure {a : α} {means : Pool → α → Prop} (h : ∀ cp, means cp a) :
    Writes (Pure.pure a) means :=
  fun p hp => ⟨a, p, rfl, .refl hp, fun cp _ => h cp⟩

/-- A part that is written before another one keeps its meaning. -/
theorem bind {e : Encoder α} {f : α → Encoder β} {means : Pool → α → Prop}
    {means' : Pool → β → Prop} (h : Writes e means)
    (h' : ∀ a, Writes (f a) fun cp b => means cp a → means' cp b) : Writes (e >>= f) means' := by
  intro p hp
  obtain ⟨a, q, hq, hpq, ha⟩ := h p hp
  obtain ⟨b, r, hr, hqr, hb⟩ := h' a q hpq.sound
  exact ⟨b, r, (run_bind hq).trans hr, hpq.trans hqr,
    fun cp hcp => hb cp hcp (ha cp (hcp.of_later hqr.later))⟩

/-- What is written means whatever follows from its meaning. -/
theorem mono {e : Encoder α} {means means' : Pool → α → Prop} (h : Writes e means)
    (hm : ∀ cp a, means cp a → means' cp a) : Writes e means' := by
  intro p hp
  obtain ⟨a, q, hq, hg, ha⟩ := h p hp
  exact ⟨a, q, hq, hg, fun cp hcp => hm cp a (ha cp hcp)⟩

/-- Parts that are written one after another. -/
theorem mapM {l : List α} {e : α → Encoder β} {means : α → Pool → β → Prop}
    (h : ∀ a ∈ l, Writes (e a) (means a)) :
    Writes (l.mapM e) fun cp bs => List.Forall₂ (fun a b => means a cp b) l bs := by
  induction l with
  | nil => exact pure fun _ => .nil
  | cons a l ih =>
    rw [List.mapM_cons]
    refine (h a List.mem_cons_self).bind fun b => ?_
    refine (ih fun a ha => h a (List.mem_cons_of_mem _ ha)).bind fun bs => ?_
    exact pure fun _ hbs hb => .cons hb hbs

end Writes

/-- Whether bytes are the index of a text. -/
def NamesText (text : Bytes) (cp : Pool) (b : Bytes) : Prop :=
  ∃ i : UInt16, b = beShort i.toNat ∧ cp.utf8 i = .ok text

/-- Whether bytes are the index of a class. -/
def NamesClass (name : Bytes) (cp : Pool) (b : Bytes) : Prop :=
  ∃ i : UInt16, b = beShort i.toNat ∧ cp.className i = .ok (Descriptor.slashed name)

/-- The index of a text is written. -/
theorem writes_text (text : Bytes) :
    Writes (ref (PoolBuilder.utf8 text)) (NamesText text) := by
  intro p hp
  obtain ⟨i, q, hq, hg, hi, _⟩ := PoolBuilder.files_utf8 text p hp
  exact ⟨beShort i.toNat, q, run_bind hq, hg, fun cp hcp => ⟨i, rfl, hcp.utf8 hi⟩⟩

/-- The index of a class is written. -/
theorem writes_class (name : Bytes) :
    Writes (ref (PoolBuilder.classRef name)) (NamesClass name) := by
  intro p hp
  obtain ⟨i, q, hq, hg, hi, _⟩ := PoolBuilder.files_classRef name p hp
  exact ⟨beShort i.toNat, q, run_bind hq, hg, fun cp hcp => ⟨i, rfl, hcp.className hi⟩⟩

/-- A name with slashes for dots has the same form with dots. -/
theorem dotted_slashed (name : Bytes) :
    Descriptor.dotted (Descriptor.slashed name) = Descriptor.dotted name := by
  simp only [Descriptor.dotted, Descriptor.slashed, Bytes.replace, List.map_map]
  refine List.map_congr_left ?_
  intro b _
  simp only [Function.comp_apply]
  split
  · simp [*]
  · rfl

/-- No class is found at index zero. -/
theorem ne_zero_of_className {cp : Pool} {i : UInt16} {name : Bytes}
    (h : cp.className i = .ok name) : i ≠ 0 := by
  obtain ⟨_, hholds, -⟩ := Pool.className_eq_ok_iff.mp h
  exact hholds.1

/-- The index of a class, or zero in place of an empty name, leads to the dotted name. -/
theorem writes_optionalClass (name : Bytes) :
    Writes (encodeOptionalClass name) fun cp b => ∃ i : UInt16, b = beShort i.toNat ∧
      ∀ place o, Reads o (ClassFile.optionalClassName cp place i) [] (Descriptor.dotted name) := by
  unfold encodeOptionalClass
  cases name with
  | nil => exact Writes.pure fun cp => ⟨0, rfl, fun _ _ => Reads.pure _⟩
  | cons x name =>
    refine (writes_class (x :: name)).mono ?_
    rintro cp b ⟨i, rfl, hi⟩
    refine ⟨i, rfl, fun place o => ?_⟩
    rw [ClassFile.optionalClassName, if_neg (ne_zero_of_className hi), ← dotted_slashed]
    exact (Reads.look_locate place hi).map _

/-- Whether bytes are of a given number and are taken by a reader, wherever it stands in a list. -/
def TakenAs (length : Nat) (item : Nat → Reader α) (v : α) (b : Bytes) : Prop :=
  b.length = length ∧ ∀ i o, Reads o (item i) b v

/-- Parts that are taken one by one are taken as a list. -/
theorem takenAs_list {l : List β} {bs : List Bytes} {length : β → Nat} {item : Nat → Reader α}
    {f : β → α} (h : List.Forall₂ (fun a b => TakenAs (length a) item (f a) b) l bs) :
    bs.length = l.length ∧ bs.flatten.length = (l.map length).sum ∧
      ReadsEach item bs (l.map f) := by
  induction h with
  | nil => exact ⟨rfl, rfl, .nil⟩
  | cons hb _ ih =>
    obtain ⟨hlength, hflatten, hreads⟩ := ih
    refine ⟨?_, ?_, .cons hb.2 hreads⟩
    · rw [List.length_cons, List.length_cons, hlength]
    · rw [List.flatten_cons, List.length_append, hb.1, hflatten, List.map_cons, List.sum_cons]

/-- An attribute is read back when the length of its contents fits its field. -/
theorem writes_attribute (name : String) (info : Bytes) :
    Writes (encodeAttribute name info) fun cp b => info.length < 2 ^ 32 →
      TakenAs (6 + info.length) (fun _ => readAttribute cp) ⟨name, info⟩ b := by
  refine (writes_text name).bind fun n => Writes.pure ?_
  rintro cp ⟨i, rfl, hi⟩ hfits
  refine ⟨?_, fun _ o => ?_⟩
  · simp only [List.length_append, beShort, beWord, List.length_cons, List.length_nil]
  · rw [List.append_assoc]
    refine (Reads.u2_toNat i).bind ((Reads.look_locate _ hi).bind_nil ((Reads.u4 _).bind ?_))
    rw [ClassFile.toNat_toUInt32 hfits]
    exact ((Reads.take info).within _).bind_pure

end ReturnAudit.Assembly
