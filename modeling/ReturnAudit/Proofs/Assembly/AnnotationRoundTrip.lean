import ReturnAudit.Proofs.Assembly.Writing
import ReturnAudit.Proofs.Keyed

/-!
# Annotations read back

The annotations of a description are written in one or two attributes, those kept at run time before
the others, and are read back with their elements. When a name stands for elements of several kinds,
the enum constant is found under it, or else the array, or else the string.
-/

namespace ReturnAudit.Assembly

open ClassFile (Pool Reads ReadsEach Reader Attribute ElementValue readElementValue readNamed
  readAnnotationBody collectElements putElement readAttribute annotationsIn annotationsOf
  readAnnotations)

/-- A string value as it is read. -/
def stringValue (value : Bytes) : ElementValue := .const 115 value

/-- An array of strings as it is read. -/
def arrayValue (values : List Bytes) : ElementValue := .array (values.map stringValue)

/-- An enum constant as it is read. -/
def enumValue (value : EnumValue) : ElementValue :=
  .enumConst (Descriptor.ofClass value.type) value.const

/-- The elements of an annotation in the order in which they are written. -/
def writtenElements (a : Annotation) : List (Bytes × ElementValue) :=
  (byName a.strings).map (Prod.map id stringValue) ++
    (byName a.arrays).map (Prod.map id arrayValue) ++
      (byName a.enums).map (Prod.map id enumValue)

/-- An annotation as it is read. -/
def readBack (a : Annotation) : ClassFile.Annotation :=
  .mk (Descriptor.ofClass a.type) (!a.invisible) (collectElements (writtenElements a))

/-- The number of bytes that an annotation takes. -/
def annotationSize (a : Annotation) : Nat :=
  4 + 5 * a.strings.length + (a.arrays.map fun e => 5 + 3 * e.2.length).sum + 7 * a.enums.length

variable {cp : Pool} {visible : Bool}

/-- A text is written so that it is read as an element with this text. -/
theorem writes_string (value : Bytes) (visible : Bool) (levels : Nat) :
    Writes (encodeString value) fun cp b =>
      TakenAs 3 (fun _ => readElementValue cp visible (levels + 1)) (stringValue value) b := by
  refine (writes_text value).bind fun v => Writes.pure ?_
  rintro cp ⟨i, rfl, hi⟩
  refine ⟨rfl, fun _ o => ?_⟩
  unfold readElementValue
  exact (Reads.u1 115).bind ((Reads.u2_toNat i).bind_last (Reads.look hi).bind_pure)

/-- An array of texts is written so that it is read as an array of them, one level down. -/
theorem writes_array {values : List Bytes} (h : values.length ≤ 65535) (visible : Bool)
    (levels : Nat) :
    Writes (encodeArray values) fun cp b =>
      TakenAs (3 + 3 * values.length) (fun _ => readElementValue cp visible (levels + 2))
        (arrayValue values) b := by
  refine (Writes.mapM fun v _ => writes_string v visible levels).bind fun vs => Writes.pure ?_
  intro cp hvs
  obtain ⟨hcount, hlength, hreads⟩ := takenAs_list hvs
  refine ⟨?_, fun _ o => ?_⟩
  · rw [List.map_const', List.sum_replicate_nat] at hlength
    simp only [List.length_append, List.length_cons, hlength, beShort, List.length_nil]
    omega
  · have hitems := Reads.counted_pure (o := o + 1) ElementValue.array (Reads.u2 vs.length)
      (hcount ▸ h) hreads
    rw [hcount] at hitems
    have hprimitive : ClassFile.isPrimitiveTag 91 = false := by decide
    unfold readElementValue
    refine (Reads.u1 91).bind ?_
    simp only [hprimitive]
    exact hitems

/-- A constant of an enumeration is written so that it is read as such an element. -/
theorem writes_enum (value : EnumValue) (visible : Bool) (levels : Nat) :
    Writes (encodeEnum value) fun cp b =>
      TakenAs 5 (fun _ => readElementValue cp visible (levels + 1)) (enumValue value) b := by
  refine (writes_text _).bind fun t => (writes_text _).bind fun c => Writes.pure ?_
  rintro cp ⟨j, rfl, hj⟩ ⟨i, rfl, hi⟩
  refine ⟨rfl, fun _ o => ?_⟩
  have hprimitive : ClassFile.isPrimitiveTag 101 = false := by decide
  unfold readElementValue
  refine (Reads.u1 101).bind ?_
  simp only [hprimitive]
  exact (Reads.u2_toNat i).bind ((Reads.u2_toNat j).bind_last
    ((Reads.look hi).bind_nil (Reads.look hj).bind_pure))

/-- A named value is read back when its value is. -/
theorem writes_named {α : Type} {encodeValue : α → Encoder Bytes} {e : Bytes × α} {length : Nat}
    {read : Pool → Reader ElementValue} {v : ElementValue}
    (h : Writes (encodeValue e.2) fun cp b => TakenAs length (fun _ => read cp) v b) :
    Writes (encodeNamed encodeValue e) fun cp b =>
      TakenAs (2 + length) (fun _ => readNamed cp (read cp)) (e.1, v) b := by
  refine (writes_text _).bind fun n => h.bind fun b => Writes.pure ?_
  rintro cp ⟨hlength, hreads⟩ ⟨i, rfl, hi⟩
  refine ⟨?_, fun k o => ?_⟩
  · rw [List.length_append, hlength]
    rfl
  · exact (Reads.u2_toNat i).bind ((Reads.look_locate _ hi).bind_nil
      ((hreads k _).within _).bind_pure)

/-- Elements in the order of their names are the same elements. -/
theorem perm_byName {α : Type} (l : List (Bytes × α)) : (byName l).Perm l :=
  List.mergeSort_perm _ _

/-- What an annotation must keep within its fields. -/
@[mk_iff] structure AnnotationFits (a : Annotation) : Prop where
  /-- The elements of all kinds are counted together. -/
  count : a.strings.length + a.arrays.length + a.enums.length ≤ 65535
  /-- The strings of an array are counted. -/
  arrays : ∀ e ∈ a.arrays, e.2.length ≤ 65535
  /-- No two strings have the same name. -/
  stringNames : (a.strings.map Prod.fst).Nodup
  /-- No two arrays have the same name. -/
  arrayNames : (a.arrays.map Prod.fst).Nodup
  /-- No two enum constants have the same name. -/
  enumNames : (a.enums.map Prod.fst).Nodup

instance : DecidablePred AnnotationFits :=
  fun a => decidable_of_iff _ (annotationFits_iff a).symm

/-- The elements of one kind. -/
theorem writes_elements {α : Type} {l : List (Bytes × α)} {encodeValue : α → Encoder Bytes}
    (length : α → Nat) (read : Pool → Reader ElementValue) (f : α → ElementValue)
    (h : ∀ e ∈ l, Writes (encodeValue e.2) fun cp b =>
      TakenAs (length e.2) (fun _ => read cp) (f e.2) b) :
    Writes ((byName l).mapM (encodeNamed encodeValue)) fun cp bs =>
      bs.length = l.length ∧ bs.flatten.length = (l.map fun e => 2 + length e.2).sum ∧
        ReadsEach (fun _ => readNamed cp (read cp)) bs
          ((byName l).map (Prod.map id f)) := by
  refine (Writes.mapM fun e he => writes_named (h e ((perm_byName l).mem_iff.mp he))).mono ?_
  intro cp bs hbs
  obtain ⟨hcount, hlength, hreads⟩ := takenAs_list hbs
  refine ⟨hcount.trans (perm_byName l).length_eq, ?_, hreads⟩
  rw [hlength, ((perm_byName l).map _).sum_nat]

/-- An annotation is read back with its elements. -/
theorem writes_annotationBody {a : Annotation} (h : AnnotationFits a) (visible : Bool)
    (levels : Nat) :
    Writes (encodeAnnotationBody a) fun cp b =>
      TakenAs (annotationSize a) (fun _ => readAnnotationBody cp visible (levels + 3))
        (.mk (Descriptor.ofClass a.type) visible (collectElements (writtenElements a))) b := by
  let read (cp : Pool) : Reader ElementValue := readElementValue cp visible (levels + 2)
  refine (writes_text _).bind fun type => ?_
  refine (writes_elements (fun _ => 3) read stringValue fun e _ =>
    writes_string e.2 visible (levels + 1)).bind fun strings => ?_
  refine (writes_elements (fun values => 3 + 3 * values.length) read arrayValue fun e he =>
    writes_array (h.arrays e he) visible levels).bind fun arrays => ?_
  refine (writes_elements (fun _ => 5) read enumValue fun e _ =>
    writes_enum e.2 visible (levels + 1)).bind fun enums => Writes.pure ?_
  rintro cp ⟨hcount₃, hlength₃, hreads₃⟩ ⟨hcount₂, hlength₂, hreads₂⟩ ⟨hcount₁, hlength₁, hreads₁⟩
    ⟨i, rfl, hi⟩
  have hcount : (strings ++ arrays ++ enums).length =
      a.strings.length + a.arrays.length + a.enums.length := by
    rw [List.length_append, List.length_append, hcount₁, hcount₂, hcount₃]
  have helements := List.rel_append (List.rel_append hreads₁ hreads₂) hreads₃
  refine ⟨?_, fun _ o => ?_⟩
  · have hstrings : (a.strings.map fun _ => 2 + 3).sum = 5 * a.strings.length := by
      rw [List.map_const', List.sum_replicate_nat, Nat.mul_comm]
    have harrays : (a.arrays.map fun e => 2 + (3 + 3 * e.2.length)).sum =
        (a.arrays.map fun e => 5 + 3 * e.2.length).sum := by
      simp only [← Nat.add_assoc, Nat.reduceAdd]
    have henums : (a.enums.map fun _ => 2 + 5).sum = 7 * a.enums.length := by
      rw [List.map_const', List.sum_replicate_nat, Nat.mul_comm]
    simp only [List.length_append, hlength₁, hlength₂, hlength₃, hstrings, harrays, henums,
      annotationSize, beShort, List.length_cons, List.length_nil]
  · have hpairs := Reads.counted_pure (o := o + 2) (fun pairs =>
      ClassFile.Annotation.mk (Descriptor.ofClass a.type) visible (collectElements pairs))
      (Reads.u2 _) (hcount ▸ h.count) helements
    rw [hcount, List.flatten_append, List.flatten_append] at hpairs
    unfold readAnnotationBody
    rw [List.append_assoc, List.append_assoc, List.append_assoc,
      ← List.append_assoc strings.flatten]
    exact (Reads.u2_toNat i).bind ((Reads.look_locate _ hi).bind_nil hpairs)

/-- The number of bytes of an attribute that holds some annotations. -/
def annotationsSize (annotations : List Annotation) : Nat :=
  2 + (annotations.map annotationSize).sum

/-- The annotations of a single attribute are those in it. -/
theorem annotationsOf_singleton {cp : Pool} {attr : Attribute} {found : List ClassFile.Annotation}
    (h : annotationsIn cp attr = .ok found) : annotationsOf cp [attr] = .ok found := by
  simp only [annotationsOf, List.mapM_cons, List.mapM_nil, h, bind, Except.bind, pure, Except.pure,
    List.flatten_singleton]

/-- The annotations in the attributes of two lists. -/
theorem annotationsOf_append_eq (cp : Pool) (attrs attrs' : List Attribute) :
    annotationsOf cp (attrs ++ attrs') = (do
      let found ← annotationsOf cp attrs
      let found' ← annotationsOf cp attrs'
      pure (found ++ found')) := by
  unfold annotationsOf
  rw [List.mapM_append]
  cases attrs.mapM (annotationsIn cp) with
  | error e => rfl
  | ok lists =>
    cases attrs'.mapM (annotationsIn cp) with
    | error e => rfl
    | ok lists' =>
      simp only [bind, Except.bind, pure, Except.pure, List.flatten_append]

/-- The annotations of two lists of attributes follow one another. -/
theorem annotationsOf_append {cp : Pool} {attrs attrs' : List Attribute}
    {found found' : List ClassFile.Annotation} (h : annotationsOf cp attrs = .ok found)
    (h' : annotationsOf cp attrs' = .ok found') :
    annotationsOf cp (attrs ++ attrs') = .ok (found ++ found') := by
  rw [annotationsOf_append_eq, h, h']
  rfl

/-- What the attributes are that hold the annotations of one description. -/
structure HoldAnnotations (cp : Pool) (bs : List Bytes) (attrs : List Attribute)
    (found : List ClassFile.Annotation) : Prop where
  /-- The attributes are read back. -/
  reads : ReadsEach (fun _ => readAttribute cp) bs attrs
  /-- The annotations are found in them. -/
  found : annotationsOf cp attrs = .ok found
  /-- They hold nothing else. -/
  names : ∀ a ∈ attrs, a.name ≠ Bytes.ofString "Code" ∧ a.name ≠ Bytes.ofString "SourceFile"

/-- Attributes that hold annotations hold them when they follow one another. -/
theorem HoldAnnotations.append {cp : Pool} {bs bs' : List Bytes} {attrs attrs' : List Attribute}
    {found found' : List ClassFile.Annotation} (h : HoldAnnotations cp bs attrs found)
    (h' : HoldAnnotations cp bs' attrs' found') :
    HoldAnnotations cp (bs ++ bs') (attrs ++ attrs') (found ++ found') := by
  refine ⟨List.rel_append h.reads h'.reads, annotationsOf_append h.found h'.found, ?_⟩
  intro a ha
  rcases List.mem_append.mp ha with ha | ha
  · exact h.names a ha
  · exact h'.names a ha

/-- The name of the attribute that holds annotations that are kept at run time, or are not. -/
def attributeName (visible : Bool) : String :=
  if visible then "RuntimeVisibleAnnotations" else "RuntimeInvisibleAnnotations"

/-- The annotations in an attribute with the name for them. -/
theorem annotationsIn_eq (cp : Pool) (visible : Bool) (info : Bytes) :
    annotationsIn cp ⟨attributeName visible, info⟩ = readAnnotations cp visible info := by
  cases visible with
  | true => rfl
  | false =>
    have hne : Bytes.ofString "RuntimeInvisibleAnnotations" ≠
        Bytes.ofString "RuntimeVisibleAnnotations" := by decide
    simp only [annotationsIn, attributeName, Bool.false_eq_true, if_false, if_neg hne, if_true]

/-- The attributes of annotations cannot be taken for a body or the name of a source. -/
theorem attributeName_ne (visible : Bool) :
    Bytes.ofString (attributeName visible) ≠ Bytes.ofString "Code" ∧
      Bytes.ofString (attributeName visible) ≠ Bytes.ofString "SourceFile" := by
  cases visible <;> decide

/-- The annotations that are kept at run time, or those that are not. -/
theorem writes_annotationList (visible : Bool) {annotations : List Annotation}
    (hannotations : annotations.length ≤ 65535) (h : ∀ a ∈ annotations, AnnotationFits a)
    (hsize : annotationsSize annotations < 2 ^ 32)
    (hvisible : ∀ a ∈ annotations, (!a.invisible) = visible) :
    Writes (encodeAnnotationList (attributeName visible) annotations) fun cp bs =>
      bs.length ≤ 1 ∧ ∃ attrs, HoldAnnotations cp bs attrs (annotations.map readBack) := by
  by_cases hempty : annotations.isEmpty = true
  · obtain rfl := List.isEmpty_iff.mp hempty
    exact Writes.pure fun cp => ⟨Nat.zero_le _, [], .nil, rfl, by simp⟩
  · rw [encodeAnnotationList, if_neg hempty]
    -- one annotation is enough for three levels
    obtain ⟨levels, hlevels⟩ : ∃ levels, annotationsSize annotations = levels + 3 := by
      obtain ⟨first, rest, rfl⟩ := List.exists_cons_of_ne_nil (mt List.isEmpty_iff.mpr hempty)
      refine ⟨annotationsSize (first :: rest) - 3, ?_⟩
      simp only [annotationsSize, annotationSize, List.map_cons, List.sum_cons]
      omega
    refine (Writes.mapM fun a ha => writes_annotationBody (h a ha) visible levels).bind
      fun bodies => ?_
    refine (writes_attribute (attributeName visible) _).bind fun written => Writes.pure ?_
    intro cp hwritten hbodies
    obtain ⟨hcount, hlength, hreads⟩ := takenAs_list hbodies
    have hinfo : (beShort annotations.length ++ bodies.flatten).length =
        annotationsSize annotations := by
      rw [List.length_append, hlength]
      rfl
    have hmap : annotations.map (fun a =>
        ClassFile.Annotation.mk (Descriptor.ofClass a.type) visible
          (collectElements (writtenElements a))) = annotations.map readBack := by
      refine List.map_congr_left ?_
      intro a ha
      rw [readBack, hvisible a ha]
    refine ⟨Nat.le_refl _, [⟨attributeName visible, beShort annotations.length ++ bodies.flatten⟩],
      ?_, ?_, ?_⟩
    · exact .cons (hwritten (hinfo ▸ hsize)).2 .nil
    · refine annotationsOf_singleton ?_
      rw [annotationsIn_eq, readAnnotations, hinfo, hlevels, ← hmap]
      have hcounted := Reads.counted (o := 0)
        ((Reads.u2 bodies.length).within .annotationCount) (hcount ▸ hannotations)
        (hreads.imp fun b v hb i o => (hb i o).within (.annotationAt i))
      rw [hcount] at hcounted
      exact ClassFile.run_eq_of_reads hcounted
    · intro a ha
      rw [List.mem_singleton.mp ha]
      exact attributeName_ne visible

/-- The annotations that are kept at run time, then the others. -/
def visibleFirst (annotations : List Annotation) : List Annotation :=
  (annotations.filter fun a => !a.invisible) ++ annotations.filter (·.invisible)

/-- What the annotations of a class or a method must keep within their fields. -/
@[mk_iff] structure AnnotationsFit (annotations : List Annotation) : Prop where
  /-- The annotations are counted. -/
  count : annotations.length ≤ 65535
  /-- Each annotation fits. -/
  each : ∀ a ∈ annotations, AnnotationFits a
  /-- The attribute of those kept at run time gives its length in four bytes. -/
  visibleSize : annotationsSize (annotations.filter fun a => !a.invisible) < 2 ^ 32
  /-- The attribute of the others does too. -/
  invisibleSize : annotationsSize (annotations.filter (·.invisible)) < 2 ^ 32

instance : DecidablePred AnnotationsFit :=
  fun annotations => decidable_of_iff _ (annotationsFit_iff annotations).symm

/-- The annotations of a class or a method are read back. -/
theorem writes_annotations {annotations : List Annotation} (h : AnnotationsFit annotations) :
    Writes (encodeAnnotations annotations) fun cp bs => bs.length ≤ 2 ∧
      ∃ attrs, HoldAnnotations cp bs attrs ((visibleFirst annotations).map readBack) := by
  have hlist : ∀ (visible : Bool) (p : Annotation → Bool),
      annotationsSize (annotations.filter p) < 2 ^ 32 → (∀ a, p a → (!a.invisible) = visible) →
      Writes (encodeAnnotationList (attributeName visible) (annotations.filter p)) fun cp bs =>
        bs.length ≤ 1 ∧
          ∃ attrs, HoldAnnotations cp bs attrs ((annotations.filter p).map readBack) :=
    fun visible p hsize hp => writes_annotationList visible
      (Nat.le_trans (List.length_filter_le _ _) h.count)
      (fun a ha => h.each a (List.mem_of_mem_filter ha)) hsize
      (fun a ha => hp a (List.mem_filter.mp ha).2)
  refine (hlist true _ h.visibleSize fun _ => id).bind fun visible => ?_
  refine (hlist false _ h.invisibleSize fun a ha => by rw [ha]; rfl).bind fun invisible => ?_
  refine Writes.pure ?_
  rintro cp ⟨hcount', attrs', hattrs'⟩ ⟨hcount, attrs, hattrs⟩
  refine ⟨?_, attrs ++ attrs', ?_⟩
  · rw [List.length_append]
    omega
  · rw [visibleFirst, List.map_append]
    exact hattrs.append hattrs'

/-- The element that an annotation describes under a name. -/
def elementOf (a : Annotation) (name : Bytes) : Option ElementValue :=
  ((a.enums.lookup name).map enumValue).or
    (((a.arrays.lookup name).map arrayValue).or ((a.strings.lookup name).map stringValue))

/-- The element that was put last is found under its name. -/
theorem lookup_putElement (name : Bytes) (value : ElementValue)
    (elements : List (Bytes × ElementValue)) (key : Bytes) :
    (putElement name value elements).lookup key =
      if name = key then some value else elements.lookup key := by
  induction elements with
  | nil => rw [putElement, lookup_cons_key]
  | cons e rest ih =>
    rw [putElement, lookup_cons_key e]
    by_cases hname : e.1 = name
    · rw [if_pos hname, lookup_cons_key, hname]
      by_cases hkey : name = key
      · rw [if_pos hkey, if_pos hkey]
      · simp only [if_neg hkey]
    · rw [if_neg hname, lookup_cons_key, ih]
      by_cases hkey : name = key
      · have hne : e.1 ≠ key := fun h => hname (h.trans hkey.symm)
        simp only [if_neg hne, if_pos hkey]
      · simp only [if_neg hkey]

/-- Of several elements with one name the last is found. -/
theorem lookup_collectElements (pairs : List (Bytes × ElementValue)) (key : Bytes) :
    (collectElements pairs).lookup key = pairs.reverse.lookup key := by
  have hfold : ∀ elements : List (Bytes × ElementValue),
      (pairs.foldl (fun es e => putElement e.1 e.2 es) elements).lookup key =
        (pairs.reverse.lookup key).or (elements.lookup key) := by
    induction pairs with
    | nil => intro elements; rfl
    | cons e pairs ih =>
      intro elements
      rw [List.foldl_cons, ih, lookup_putElement, List.reverse_cons, List.lookup_append,
        Option.or_assoc, lookup_cons_key, List.lookup_nil]
      split <;> rfl
  refine (hfold []).trans ?_
  rw [List.lookup_nil, Option.or_none]

/-- Elements with distinct names are found in every order. -/
theorem lookup_byName {α : Type} {l : List (Bytes × α)} (h : (l.map Prod.fst).Nodup)
    (f : α → ElementValue) (key : Bytes) :
    ((byName l).map (Prod.map id f)).reverse.lookup key = (l.lookup key).map f := by
  rw [← List.map_reverse, lookup_map_values,
    lookup_perm h ((List.reverse_perm _).trans (perm_byName l))]

/-- The elements of an annotation that is read back are those that it describes. -/
theorem element?_readBack {a : Annotation} (h : AnnotationFits a) (name : Bytes) :
    (readBack a).element? name = elementOf a name := by
  show (collectElements (writtenElements a)).lookup name = _
  rw [lookup_collectElements, writtenElements, List.reverse_append, List.reverse_append,
    List.lookup_append, List.lookup_append, lookup_byName h.enumNames, lookup_byName h.arrayNames,
    lookup_byName h.stringNames, elementOf]

end ReturnAudit.Assembly
