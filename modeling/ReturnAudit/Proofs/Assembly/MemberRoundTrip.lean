import ReturnAudit.Proofs.Assembly.AnnotationRoundTrip
import ReturnAudit.Proofs.Assembly.CodeRoundTrip

/-!
# Fields and methods read back

A method is written while the pool still grows: its code is assembled against the constants that are
there, and what it holds is settled by the finished pool. There the same lines are assembled to the
same code and nothing is added, so the code of a method can be told from the description and the
finished pool alone.
-/

namespace ReturnAudit.Assembly

open ClassFile (Pool Reads ReadsEach Reader Attribute Member readAttribute annotationsIn
  annotationsOf readMember)
open PoolBuilder (Grown Resolves)

variable {α β : Type}

/-- Whether an encoder that may fail writes something, when it succeeds, that has a meaning in every
pool that resolves the indices of a finished one. -/
def Emits (e : StateT PoolBuilder (Except EncodeError) α)
    (means : Pool → PoolBuilder → α → Prop) : Prop :=
  ∀ p a q, p.Sound → e p = .ok (a, q) → Grown p q ∧
    ∀ cp r, Resolves cp r → q.Later r → means cp r a

namespace Emits

/-- What is emitted without a step. -/
theorem pure {a : α} {means : Pool → PoolBuilder → α → Prop} (h : ∀ cp r, means cp r a) :
    Emits (Pure.pure a) means := by
  intro p b q hp hrun
  obtain ⟨rfl, rfl⟩ := of_run_pure hrun
  exact ⟨.refl hp, fun cp r _ _ => h cp r⟩

/-- A part that is written before another one keeps its meaning. -/
theorem bind {e : StateT PoolBuilder (Except EncodeError) α}
    {f : α → StateT PoolBuilder (Except EncodeError) β} {means : Pool → PoolBuilder → α → Prop}
    {means' : Pool → PoolBuilder → β → Prop} (h : Emits e means)
    (h' : ∀ a, Emits (f a) fun cp r b => means cp r a → means' cp r b) :
    Emits (e >>= f) means' := by
  intro p b q hp hrun
  obtain ⟨a, t, ha, hb⟩ := of_run_bind hrun
  obtain ⟨hpt, hmeans⟩ := h p a t hp ha
  obtain ⟨htq, hmeans'⟩ := h' a t b q hpt.sound hb
  exact ⟨hpt.trans htq, fun cp r hcp hr =>
    hmeans' cp r hcp hr (hmeans cp r hcp (htq.later.trans hr))⟩

/-- A part that cannot fail. -/
theorem lift {e : Encoder α} {means : Pool → α → Prop} (h : Writes e means) :
    Emits (Assembly.lift e) fun cp _ => means cp := by
  intro p a q hp hrun
  obtain ⟨a', q', hq', hgrown, hmeans⟩ := h p hp
  rw [Assembly.lift, hq'] at hrun
  cases hrun
  exact ⟨hgrown, fun cp r hcp hr => hmeans cp (hcp.of_later hr)⟩

/-- Parts that are written one after another. -/
theorem mapM {l : List α} {e : α → StateT PoolBuilder (Except EncodeError) β}
    {means : α → Pool → PoolBuilder → β → Prop} (h : ∀ a ∈ l, Emits (e a) (means a)) :
    Emits (l.mapM e) fun cp r bs => List.Forall₂ (fun a b => means a cp r b) l bs := by
  induction l with
  | nil => exact pure fun _ _ => .nil
  | cons a l ih =>
    rw [List.mapM_cons]
    refine (h a List.mem_cons_self).bind fun b => ?_
    refine (ih fun a ha => h a (List.mem_cons_of_mem _ ha)).bind fun bs => ?_
    exact pure fun _ _ hbs hb => .cons hb hbs

end Emits

/-- A field or method is read back from its flags, its names and its attributes. -/
theorem reads_readMember (access : UInt16) {cp : Pool} {name descriptor n d : Bytes}
    {bs : List Bytes} {attrs : List Attribute} {found : List ClassFile.Annotation}
    (hn : NamesText name cp n) (hd : NamesText descriptor cp d) (hcount : bs.length ≤ 65535)
    (hattrs : ReadsEach (fun _ => readAttribute cp) bs attrs)
    (hfound : annotationsOf cp attrs = .ok found) (o : Nat) :
    Reads o (readMember cp) (beShort access.toNat ++ n ++ d ++ beShort bs.length ++ bs.flatten)
      ⟨access, name, descriptor, attrs, found⟩ := by
  obtain ⟨i, rfl, hi⟩ := hn
  obtain ⟨j, rfl, hj⟩ := hd
  simp only [List.append_assoc]
  refine (Reads.u2_toNat access).bind ((Reads.u2_toNat i).bind ((Reads.u2_toNat j).bind ?_))
  refine (Reads.look_locate _ hi).bind_nil ((Reads.look_locate _ hj).bind_nil ?_)
  refine Reads.bind_last ((Reads.counted (Reads.u2 _) hcount hattrs).within _) ?_
  exact (Reads.look_locate _ hfound).bind_pure

/-- A field as it is read. -/
def fieldOf (f : Field) : ClassFile.Field :=
  ⟨fieldAccess f, f.name, f.descriptor, []⟩

/-- A field is written so that it is read as the field it describes. -/
theorem writes_field (f : Field) :
    Writes (encodeField f) fun cp b => ∀ i o, Reads o (ClassFile.readField cp i) b (fieldOf f) := by
  refine (writes_text _).bind fun n => (writes_text _).bind fun d => Writes.pure ?_
  intro cp hd hn i o
  have hmember := reads_readMember (fieldAccess f) hn hd (Nat.zero_le _) .nil rfl o
  rw [List.flatten_nil, List.append_nil] at hmember
  exact (hmember.within _).bind_pure

/-- What an annotation that is read has to do with the one that describes it. -/
structure AnnotationOf (a : Annotation) (k : ClassFile.Annotation) : Prop where
  /-- The type is given as a descriptor. -/
  type : k.type = Descriptor.ofClass a.type
  /-- Whether it is kept at run time. -/
  visible : k.visible = !a.invisible
  /-- What is found under each name. -/
  elements : ∀ name, k.element? name = elementOf a name

/-- Annotations that fit are read back in the order in which they are written. -/
theorem annotationOf_readBack {annotations : List Annotation} (h : AnnotationsFit annotations) :
    List.Forall₂ AnnotationOf (visibleFirst annotations)
      ((visibleFirst annotations).map readBack) := by
  refine List.forall₂_map_right_iff.mpr (List.forall₂_same.mpr ?_)
  intro a ha
  refine ⟨rfl, rfl, element?_readBack (h.each a ?_)⟩
  rcases List.mem_append.mp ha with ha | ha
  · exact List.mem_of_mem_filter ha
  · exact List.mem_of_mem_filter ha

/-- What a body that is read has to do with the method that describes it. -/
structure BodyOf (pool : PoolBuilder) (m : Method) (k : ClassFile.Code) : Prop where
  /-- The bytes are those that the lines are assembled to; the instructions stand where the
  assembler put them, and so do their lines. -/
  assembled : ∃ pcs, assemble m.code pool = .ok ((k.bytes, pcs), pool) ∧
    k.instructions.map (·.pc) = pcs ∧ k.lines = linesOf m.firstLine pcs
  /-- There is one instruction for each line. -/
  opcodes : List.Forall₂ HasOpcode m.code k.instructions
  /-- The protected ranges are those of the method, one by one. -/
  ranges : k.exceptionTable = m.handlers.map rangeOf

/-- What a method that is read has to do with the one that describes it. -/
structure MethodOf (pool : PoolBuilder) (m : Method) (k : ClassFile.Method) : Prop where
  /-- The access flags. -/
  access : k.access = methodAccess m
  /-- The name. -/
  name : k.name = m.name
  /-- The types of the parameters and of the result. -/
  descriptor : k.descriptor = m.descriptor
  /-- The annotations, those kept at run time before the others. -/
  annotations : List.Forall₂ AnnotationOf (visibleFirst m.annotations) k.annotations
  /-- A method without lines has no body. -/
  bodiless : m.code = [] → k.code = none
  /-- A method with lines has the body that they describe. -/
  body : m.code ≠ [] → ∃ code, k.code = some code ∧ BodyOf pool m code

/-- What the attributes are that hold the body of a method, if it has one. -/
structure HoldBody (cp : Pool) (bs : List Bytes) (attrs : List Attribute)
    (body : Option ClassFile.Code) : Prop where
  /-- There is at most one. -/
  count : bs.length ≤ 1
  /-- The attributes are read back. -/
  reads : ReadsEach (fun _ => readAttribute cp) bs attrs
  /-- They are known by their name. -/
  names : ∀ a ∈ attrs, a.name = Bytes.ofString "Code"
  /-- The body is found in them. -/
  found : ∀ place, attrs.mapM (fun a => ClassFile.locate place (ClassFile.readCode cp a.info)) =
    .ok body.toList
  /-- No annotations are found in them. -/
  annotations : annotationsOf cp attrs = .ok []

/-- No attributes hold no body. -/
theorem holdBody_none (cp : Pool) : HoldBody cp [] [] none :=
  ⟨Nat.zero_le _, .nil, by simp, fun _ => rfl, rfl⟩

/-- A single attribute with the name for bodies holds the body that is read from it. -/
theorem holdBody_some {cp : Pool} {b info : Bytes} {code : ClassFile.Code}
    (hreads : ∀ (_ : Nat) o, Reads o (readAttribute cp) b ⟨"Code", info⟩)
    (hcode : ClassFile.readCode cp info = .ok code) :
    HoldBody cp [b] [⟨"Code", info⟩] (some code) := by
  refine ⟨Nat.le_refl _, .cons hreads .nil, by simp, ?_, ?_⟩
  · intro place
    simp only [List.mapM_cons, List.mapM_nil, hcode]
    rfl
  · have hvisible : Bytes.ofString "Code" ≠ Bytes.ofString "RuntimeVisibleAnnotations" := by decide
    have hinvisible : Bytes.ofString "Code" ≠ Bytes.ofString "RuntimeInvisibleAnnotations" := by
      decide
    refine annotationsOf_singleton ?_
    rw [annotationsIn, if_neg hvisible, if_neg hinvisible]
    rfl

/-- A method whose lines are accepted is assembled line by line. -/
theorem assemblesCode {m : Method} {p q : PoolBuilder} {code : Bytes} {pcs : List Nat}
    (hp : p.Sound) (h : assembleCode m p = .ok ((code, pcs), q)) :
    Assembles m.code 0 p code pcs q := by
  rw [assembleCode] at h
  cases hassemble : assemble m.code p with
  | error e =>
    rw [hassemble] at h
    cases h
  | ok out =>
    rw [hassemble] at h
    cases h
    exact assembles hp hassemble

/-- Assembled lines are decoded with every pool that resolves their indices. -/
theorem Assembles.decode_eq {lines : List Bytes} {p q r : PoolBuilder} {code : Bytes}
    {pcs : List Nat} (h : Assembles lines 0 p code pcs q) {cp : Pool} (hcp : Resolves cp r)
    (hr : q.Later r) :
    ∃ insns, ClassFile.decode (some cp) code = .ok insns ∧ insns.map (·.pc) = pcs ∧
      List.Forall₂ HasOpcode lines insns := by
  obtain ⟨insns, hinsns, hpcs, hops⟩ := h.reads (some cp) code.length
    (fun _ hmem => Option.mem_some_iff.mp hmem ▸ hcp.of_later hr) (Nat.le_refl _)
  refine ⟨insns, ?_, hpcs, hops⟩
  rw [ClassFile.decode, Reader.run, ClassFile.Cursor.start, hinsns]
  rfl

/-- A decoded body is the one that the lines of a method describe. -/
theorem Assembles.bodyOf {m : Method} {p q r : PoolBuilder} {code : Bytes} {pcs : List Nat}
    (h : Assembles m.code 0 p code pcs q) (hr : q.Later r) {insns : List ClassFile.Instruction}
    (hpcs : insns.map (·.pc) = pcs) (hops : List.Forall₂ HasOpcode m.code insns) :
    BodyOf r m (codeOf m code pcs insns) :=
  ⟨⟨pcs, h.again 1 r hr, hpcs, rfl⟩, hops, rfl⟩

/-- The body of a method is held by its attributes. -/
theorem emits_methodCode {m : Method} (hfits : CodeFits m) :
    Emits (encodeMethodCode m) fun cp r bs => ∃ attrs body, HoldBody cp bs attrs body ∧
      (m.code = [] → body = none) ∧
        (m.code ≠ [] → ∃ code, body = some code ∧ BodyOf r m code) := by
  by_cases hempty : m.code = []
  · have hnone : encodeMethodCode m = Pure.pure [] := by
      rw [encodeMethodCode, hempty]
      rfl
    rw [hnone]
    exact Emits.pure fun cp r =>
      ⟨[], none, holdBody_none cp, fun _ => rfl, fun h => (h hempty).elim⟩
  · intro p bs q hp hrun
    rw [encodeMethodCode, if_neg (mt List.isEmpty_iff.mp hempty)] at hrun
    obtain ⟨⟨code, pcs⟩, s, hassemble, hrest⟩ := of_run_bind hrun
    obtain ⟨written, t, hwritten, hpure⟩ := of_run_bind hrest
    obtain ⟨rfl, rfl⟩ := of_run_pure hpure
    have h := assemblesCode hp hassemble
    obtain ⟨hgrown, hmeans⟩ := Emits.lift (writes_code hfits h) s written q h.grown.sound hwritten
    refine ⟨h.grown.trans hgrown, fun cp r hcp hr => ?_⟩
    -- the code was assembled before the pool was finished, and is the same for the finished pool
    obtain ⟨info, hreads, hcode⟩ := hmeans cp r hcp hr
    obtain ⟨insns, hinsns, hpcs, hops⟩ := h.decode_eq hcp (hgrown.later.trans hr)
    exact ⟨_, _, holdBody_some hreads (hcode insns hinsns), fun hnil => (hempty hnil).elim,
      fun _ => ⟨_, rfl, h.bodyOf (hgrown.later.trans hr) hpcs hops⟩⟩

/-- What a method must keep within its fields. -/
@[mk_iff] structure MethodFits (m : Method) : Prop where
  /-- The annotations fit. -/
  annotations : AnnotationsFit m.annotations
  /-- The body fits. -/
  code : CodeFits m

instance : DecidablePred MethodFits :=
  fun m => decidable_of_iff _ (methodFits_iff m).symm

/-- The bodies in the attributes of a method. -/
theorem bodiesOf_eq {cp : Pool} {bs bs' : List Bytes} {attrs attrs' : List Attribute}
    {body : Option ClassFile.Code} {found : List ClassFile.Annotation}
    (h : HoldBody cp bs attrs body) (h' : HoldAnnotations cp bs' attrs' found)
    (access : UInt16) (name descriptor : Bytes) :
    ClassFile.bodiesOf cp ⟨access, name, descriptor, attrs ++ attrs', found⟩ = .ok body.toList := by
  have hcode : attrs.filter (fun a => a.name = Bytes.ofString "Code") = attrs :=
    List.filter_eq_self.mpr fun a ha => decide_eq_true (h.names a ha)
  have hnone : attrs'.filter (fun a => a.name = Bytes.ofString "Code") = [] :=
    List.filter_eq_nil_iff.mpr fun a ha => by simp [(h'.names a ha).1]
  rw [ClassFile.bodiesOf, List.filter_append, hcode, hnone, List.append_nil]
  exact h.found _

/-- A method is read back with its body and its annotations. -/
theorem emits_method {m : Method} (hfits : MethodFits m) :
    Emits (encodeMethod m) fun cp r b => ∃ k, MethodOf r m k ∧
      ∀ i o, Reads o (ClassFile.readMethod cp i) b k := by
  refine (Emits.lift (writes_text _)).bind fun n => (Emits.lift (writes_text _)).bind fun d => ?_
  refine (emits_methodCode hfits.code).bind fun code => ?_
  refine (Emits.lift (writes_annotations hfits.annotations)).bind fun annotations => Emits.pure ?_
  rintro cp r ⟨hcount', attrs', hannotations⟩ ⟨attrs, body, hbody, hnone, hsome⟩ hd hn
  have hfound := annotationsOf_append hbody.annotations hannotations.found
  have hcount := hbody.count
  have hlength : (code ++ annotations).length ≤ 65535 := by
    rw [List.length_append]
    omega
  have hmember := reads_readMember (methodAccess m) hn hd hlength
    (List.rel_append hbody.reads hannotations.reads) hfound
  refine ⟨⟨methodAccess m, m.name, m.descriptor, _, body⟩,
    ⟨rfl, rfl, rfl, annotationOf_readBack hfits.annotations, hnone, hsome⟩, fun i o => ?_⟩
  -- there is at most one body, so the last one is the only one
  have hlast : body.toList.getLast? = body := by cases body <;> rfl
  refine ((hmember o).within _).bind_last ?_
  refine (Reads.look (bodiesOf_eq hbody hannotations _ _ _)).bind_nil ?_
  simp only [hlast]
  exact Reads.pure _

end ReturnAudit.Assembly
