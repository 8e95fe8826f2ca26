import ReturnAudit.Proofs.Assembly.MemberRoundTrip

/-!
# Class files read back

A class file that is encoded from a description is read back as the class that the description
tells, as long as everything fits its field. The constant pool stands in front of the rest although
it is finished last; every index in the rest was handed out by a pool that only grew since.
-/

namespace ReturnAudit.Assembly

open ClassFile (Pool Reads ReadsEach Reader Attribute annotationsOf classAttribute)
open PoolBuilder (Grown Resolves)

/-- The constants that the description of a class comes to. -/
def finishedPool (c : Class) : PoolBuilder :=
  match encodeBody c .empty with
  | .ok (_, pool) => pool
  | .error _ => .empty

/-- What a class must keep within its fields. -/
@[mk_iff] structure Fits (c : Class) : Prop where
  /-- The interfaces are counted. -/
  interfaceCount : c.interfaces.length ≤ 65535
  /-- The fields are counted. -/
  fieldCount : c.fields.length ≤ 65535
  /-- The methods are counted. -/
  methodCount : c.methods.length ≤ 65535
  /-- Each method fits. -/
  methods : ∀ m ∈ c.methods, MethodFits m
  /-- The annotations fit. -/
  annotations : AnnotationsFit c.annotations
  /-- The constants are counted from one on. -/
  poolSize : (finishedPool c).size ≤ 65534
  /-- Every text that is written gives its length in two bytes. -/
  texts : ∀ k ∈ (finishedPool c).constants, k.Fits

instance : DecidablePred Fits :=
  fun c => decidable_of_iff _ (fits_iff c).symm

/-- What a class that is read has to do with the one that describes it. -/
structure ClassOf (pool : PoolBuilder) (c : Class) (k : ClassFile.Class) : Prop where
  /-- The version of the format. -/
  version : k.major = 52 ∧ k.minor = 0
  /-- The access flags. -/
  access : k.access = classAccess c
  /-- The name is dotted. -/
  name : k.name = Descriptor.dotted c.name
  /-- The class that is given, or else the root class, unless the class is the root itself. -/
  super : k.super = if c.super ≠ [] then Descriptor.dotted c.super
    else if c.name = rootClass then [] else rootClass
  /-- The interfaces in order. -/
  interfaces : k.interfaces = c.interfaces.map Descriptor.dotted
  /-- The fields in order. -/
  fields : k.fields = c.fields.map fieldOf
  /-- The methods in order. -/
  methods : List.Forall₂ (MethodOf pool) c.methods k.methods
  /-- The annotations, those kept at run time before the others. -/
  annotations : List.Forall₂ AnnotationOf (visibleFirst c.annotations) k.annotations

/-- The class that is extended, written out. -/
theorem dotted_superOf (c : Class) :
    Descriptor.dotted (superOf c) = if c.super ≠ [] then Descriptor.dotted c.super
      else if c.name = rootClass then [] else rootClass := by
  have hroot : Descriptor.dotted rootClass = rootClass := by decide
  rw [superOf]
  by_cases hsuper : c.super = []
  · by_cases hname : c.name = rootClass
    · simp [hsuper, hname, Descriptor.dotted, Bytes.replace]
    · simp [hsuper, hname, hroot]
  · simp [hsuper]

/-- The index of a class is read as an interface with its name. -/
theorem reads_readInterface {cp : Pool} {interface b : Bytes} (h : NamesClass interface cp b)
    (name : Bytes) (i o : Nat) :
    Reads o (ClassFile.readInterface cp name i) b (Descriptor.dotted interface) := by
  obtain ⟨index, rfl, hindex⟩ := h
  rw [← dotted_slashed]
  exact ((Reads.u2_toNat index).within _).bind_last ((Reads.look_locate _ hindex).map _)

/-- The annotations in a first attribute and in those that follow it. -/
private theorem annotationsOf_cons {cp : Pool} {a : Attribute} {attrs : List Attribute}
    {found : List ClassFile.Annotation} (h : annotationsOf cp (a :: attrs) = .ok found) :
    ∃ first rest, annotationsOf cp [a] = .ok first ∧ annotationsOf cp attrs = .ok rest ∧
      found = first ++ rest := by
  have happend := annotationsOf_append_eq cp [a] attrs
  rw [List.singleton_append, h] at happend
  cases hfirst : annotationsOf cp [a] with
  | error e =>
    rw [hfirst] at happend
    cases happend
  | ok first =>
    cases hrest : annotationsOf cp attrs with
    | error e =>
      rw [hfirst, hrest] at happend
      cases happend
    | ok rest =>
      rw [hfirst, hrest] at happend
      cases happend
      exact ⟨first, rest, rfl, rfl, rfl⟩

/-- Class attributes that do not name a source file contribute their annotations. -/
theorem foldlM_classAttribute {cp : Pool} {attrs : List Attribute}
    {found : List ClassFile.Annotation} (h : annotationsOf cp attrs = .ok found)
    (hnames : ∀ a ∈ attrs, a.name ≠ Bytes.ofString "SourceFile")
    (sofar : Bytes × List ClassFile.Annotation) :
    attrs.foldlM (classAttribute cp) sofar = .ok (sofar.1, sofar.2 ++ found) := by
  induction attrs generalizing found sofar with
  | nil =>
    have hfound : found = [] := by cases h; rfl
    rw [hfound, List.append_nil]
    rfl
  | cons a attrs ih =>
    obtain ⟨first, rest, hfirst, hrest, rfl⟩ := annotationsOf_cons h
    have hstep : classAttribute cp sofar a = .ok (sofar.1, sofar.2 ++ first) := by
      rw [classAttribute, if_neg (hnames a List.mem_cons_self), hfirst]
      rfl
    rw [List.foldlM_cons, hstep]
    exact (ih hrest (fun a ha => hnames a (List.mem_cons_of_mem _ ha)) _).trans
      (by rw [List.append_assoc])

/-- Choosing one value for each pair. -/
private theorem exists_forall₂ {α β γ : Type} {R : α → γ → Prop} {S : β → γ → Prop} {l : List α}
    {bs : List β} (h : List.Forall₂ (fun a b => ∃ k, R a k ∧ S b k) l bs) :
    ∃ ks, List.Forall₂ R l ks ∧ List.Forall₂ S bs ks := by
  induction h with
  | nil => exact ⟨[], .nil, .nil⟩
  | cons hab _ ih =>
    obtain ⟨k, hR, hS⟩ := hab
    obtain ⟨ks, hRs, hSs⟩ := ih
    exact ⟨k :: ks, .cons hR hRs, .cons hS hSs⟩

/-- Values that are computed from the left of each pair. -/
private theorem forall₂_map_of {α β γ : Type} {R : α → β → Prop} {S : β → γ → Prop} {f : α → γ}
    {l : List α} {bs : List β} (h : List.Forall₂ R l bs) (hS : ∀ a b, R a b → S b (f a)) :
    List.Forall₂ S bs (l.map f) :=
  List.forall₂_map_right_iff.mpr (h.flip.imp fun b a hab => hS a b hab)

section

variable {cp : Pool} {i j : UInt16} {name super : Bytes}
  {interfaces fields methods attributes : List Bytes} {names : List Bytes}
  {fs : List ClassFile.Field} {ms : List ClassFile.Method} {attrs : List Attribute}
  {found : List ClassFile.Annotation}

/-- What follows the constants is read back from its parts. -/
theorem reads_readDeclaration (access : UInt16)
    (hname : cp.className i = .ok (Descriptor.slashed name))
    (hsuper : ∀ place o, Reads o (ClassFile.optionalClassName cp place j) [] super)
    (hinterfaces : ReadsEach (ClassFile.readInterface cp (Descriptor.dotted name)) interfaces names)
    (hfields : ReadsEach (ClassFile.readField cp) fields fs)
    (hmethods : ReadsEach (ClassFile.readMethod cp) methods ms)
    (hattributes : ReadsEach (fun _ => ClassFile.readAttribute cp) attributes attrs)
    (hfound : attrs.foldlM (classAttribute cp) ([], []) = .ok ([], found))
    (hcounts : interfaces.length ≤ 65535 ∧ fields.length ≤ 65535 ∧ methods.length ≤ 65535 ∧
      attributes.length ≤ 65535) (o : Nat) :
    Reads o (ClassFile.readDeclaration 52 0 cp)
      (beShort access.toNat ++ beShort i.toNat ++ beShort j.toNat
        ++ beShort interfaces.length ++ interfaces.flatten
        ++ beShort fields.length ++ fields.flatten
        ++ beShort methods.length ++ methods.flatten
        ++ beShort attributes.length ++ attributes.flatten)
      ⟨52, 0, access, Descriptor.dotted name, super, names, fs, ms, found, [], cp⟩ := by
  simp only [List.append_assoc]
  refine ((Reads.u2_toNat _).within _).bind (((Reads.u2_toNat i).within _).bind ?_)
  refine ((Reads.look_locate _ hname).map _).bind_nil ?_
  rw [dotted_slashed]
  refine ((Reads.u2_toNat j).within _).bind ((hsuper _ _).bind_nil ?_)
  refine ((Reads.u2 _).within _).bind ?_
  rw [ClassFile.toNat_toUInt16 hcounts.1]
  refine (Reads.many hinterfaces).bind ?_
  rw [← List.append_assoc (beShort fields.length), ← List.append_assoc (beShort methods.length)]
  refine ((Reads.counted ((Reads.u2 _).within _) hcounts.2.1 hfields).within _).bind ?_
  refine ((Reads.counted ((Reads.u2 _).within _) hcounts.2.2.1 hmethods).within _).bind ?_
  refine Reads.bind_last
    (((Reads.counted (Reads.u2 _) hcounts.2.2.2 hattributes).within _).within _) ?_
  exact (Reads.look_locate _ hfound).bind_pure

end

/-- What follows the constants is read back as the class that it describes. -/
theorem emits_body {c : Class} (hfits : Fits c) :
    Emits (encodeBody c) fun cp r b => ∃ k, ClassOf r c k ∧
      ∀ o, Reads o (ClassFile.readDeclaration 52 0 cp) b k := by
  refine (Emits.lift (writes_class _)).bind fun name => ?_
  refine (Emits.lift (writes_optionalClass _)).bind fun super => ?_
  refine (Emits.lift (Writes.mapM fun i _ => writes_class i)).bind fun interfaces => ?_
  refine (Emits.lift (Writes.mapM fun f _ => writes_field f)).bind fun fields => ?_
  refine (Emits.mapM fun m hm => emits_method (hfits.methods m hm)).bind fun methods => ?_
  refine (Emits.lift (writes_annotations hfits.annotations)).bind fun attributes => Emits.pure ?_
  rintro cp r ⟨hcount, attrs, hattrs⟩ hmethods hfields hinterfaces ⟨j, rfl, hj⟩ ⟨i, rfl, hi⟩
  obtain ⟨ks, hks, hmethods'⟩ := exists_forall₂ hmethods
  have hfound := foldlM_classAttribute hattrs.found (fun a ha => (hattrs.names a ha).2) ([], [])
  have hcounts : interfaces.length ≤ 65535 ∧ fields.length ≤ 65535 ∧ methods.length ≤ 65535 ∧
      attributes.length ≤ 65535 := by
    rw [← hinterfaces.length_eq, ← hfields.length_eq, ← hmethods.length_eq]
    exact ⟨hfits.interfaceCount, hfits.fieldCount, hfits.methodCount, by omega⟩
  have hreads := reads_readDeclaration (classAccess c) hi hj
    (forall₂_map_of hinterfaces fun n b hn => reads_readInterface hn _)
    (forall₂_map_of hfields fun f b hf => hf) hmethods' hattrs.reads hfound hcounts
  rw [hinterfaces.length_eq, hfields.length_eq, hmethods.length_eq]
  refine ⟨_, ?_, hreads⟩
  exact ⟨⟨rfl, rfl⟩, rfl, rfl, dotted_superOf c, rfl, rfl, hks,
    annotationOf_readBack hfits.annotations⟩

/-- The parts of an encoded class file. -/
theorem of_encode {c : Class} {data : Bytes} (h : encode c = .ok data) :
    ∃ body, encodeBody c .empty = .ok (body, finishedPool c) ∧
      data = beWord ClassFile.magic ++ beShort 0 ++ beShort 52
        ++ beShort ((finishedPool c).size + 1)
        ++ (finishedPool c).constants.flatMap encodeConstant ++ body := by
  rw [encode] at h
  cases hbody : encodeBody c .empty with
  | error e =>
    rw [hbody] at h
    cases h
  | ok out =>
    obtain ⟨body, pool⟩ := out
    have hpool : finishedPool c = pool := by rw [finishedPool, hbody]
    rw [hbody] at h
    cases h
    exact ⟨body, by rw [hpool], by rw [hpool]⟩

/-- A class file is read back from its constants and what follows them. -/
theorem reads_readClass {pool : PoolBuilder} (hpool : pool.Sound) (hsize : pool.size ≤ 65534)
    (htexts : ∀ c ∈ pool.constants, c.Fits) {body : Bytes} {k : ClassFile.Class}
    (hbody : ∀ o, Reads o (ClassFile.readDeclaration 52 0 pool.finished) body k) :
    Reads 0 ClassFile.readClass (beWord ClassFile.magic ++ beShort 0 ++ beShort 52
      ++ beShort (pool.size + 1) ++ pool.constants.flatMap encodeConstant ++ body) k := by
  have hmagic : ClassFile.magic.toUInt32.toNat = ClassFile.magic := by decide
  simp only [List.append_assoc]
  -- the count of the constants belongs to what is read as the pool
  rw [← List.append_assoc (beShort (pool.size + 1))]
  refine ((Reads.u4 _).within _).bind ?_
  simp only [hmagic, ne_eq, not_true_eq_false, if_false]
  refine ((Reads.u2 0).within _).bind (((Reads.u2 52).within _).bind ?_)
  exact ((PoolBuilder.reads_finished hpool hsize htexts).within _).bind (hbody _)

/-- A class file that is encoded from a description is read back as the class that the description
tells. -/
theorem parse_encode {c : Class} {data : Bytes} (h : encode c = .ok data) (hfits : Fits c) :
    ∃ k, ClassFile.parse data = .ok k ∧ ClassOf (finishedPool c) c k := by
  obtain ⟨body, hbody, rfl⟩ := of_encode h
  obtain ⟨hgrown, hmeans⟩ := emits_body hfits _ _ _ PoolBuilder.sound_empty hbody
  have hresolves := PoolBuilder.resolves_finished hgrown.sound hfits.poolSize
  obtain ⟨k, hclass, hreads⟩ := hmeans _ _ hresolves (.refl _)
  exact ⟨k, ClassFile.run_eq_of_reads
    (reads_readClass hgrown.sound hfits.poolSize hfits.texts hreads), hclass⟩

/-- A class is encoded when nothing is reported instead. -/
theorem exists_encode {c : Class} (h : (encode c).toOption.isSome = true) :
    ∃ data, encode c = .ok data := by
  obtain ⟨data, hdata⟩ := Option.isSome_iff_exists.mp h
  exact ⟨data, toOption_eq_some_iff.mp hdata⟩

/-- A class with a field, two annotations, a guarded method and a native one. -/
def guarded : Class where
  name := "a.Guarded"
  annotations := [
    { type := "a.Kept", strings := [("value", "x")] },
    { type := "a.Dropped", invisible := true, enums := [("level", ⟨"a.Level", "LOW"⟩)] }]
  fields := [{ name := "held", descriptor := "Z", static := true }]
  methods := [
    { name := "run", descriptor := "()V", firstLine := 7,
      code := ["invokestatic a.Lock.close()V", "return", "athrow"],
      handlers := [⟨0, 3, 4, "a.Broken"⟩] },
    { name := "step", descriptor := "()I", native := true }]

/-- This class fits, and its file is read as the class that it describes. -/
theorem parse_encode_guarded : Fits guarded ∧ ∃ data k, encode guarded = .ok data ∧
    ClassFile.parse data = .ok k ∧ ClassOf (finishedPool guarded) guarded k := by
  have hguarded : (encode guarded).toOption.isSome = true ∧ Fits guarded := by decide +kernel
  obtain ⟨data, hdata⟩ := exists_encode hguarded.1
  obtain ⟨k, hk, hclass⟩ := parse_encode hdata hguarded.2
  exact ⟨hguarded.2, data, k, hdata, hk, hclass⟩

end ReturnAudit.Assembly
