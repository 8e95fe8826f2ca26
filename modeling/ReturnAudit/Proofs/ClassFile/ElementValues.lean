import ReturnAudit.Proofs.Assembly.AnnotationRoundTrip
import ReturnAudit.Proofs.Assembly.Instructions
import ReturnAudit.Proofs.ClassFile.ElementDepth
import ReturnAudit.Proofs.ClassFile.PoolLookups

/-!
# Element values read back

An element value is written as a tree of tags and indices. When the indices lead to constants of the
kinds that the tags ask for, the tree is read back with the texts and numbers that these constants
hold, to any depth, and nothing behind it is touched.
-/

namespace ReturnAudit.ClassFile

open Assembly (beShort length_beShort lookup_collectElements)

variable {pool : Pool} {visible : Bool} {o : Nat}

/-- The primitive types of elements. -/
inductive PrimitiveType where
  | byte
  | char
  | double
  | float
  | int
  | long
  | short
  | boolean
  deriving DecidableEq, Repr

/-- The tag of a primitive type: the letter of its descriptor. -/
def PrimitiveType.tag : PrimitiveType → UInt8
  | byte => 66
  | char => 67
  | double => 68
  | float => 70
  | int => 73
  | long => 74
  | short => 83
  | boolean => 90

/-- An element value as it is written: with indices in the place of constants. -/
inductive ElementForm where
  /-- A string. -/
  | string (index : UInt16)
  /-- A number. -/
  | primitive (type : PrimitiveType) (index : UInt16)
  /-- An enum constant. -/
  | enumConst (type name : UInt16)
  /-- A class. -/
  | classInfo (descriptor : UInt16)
  /-- A nested annotation with its named elements. -/
  | nested (type : UInt16) (elements : List (UInt16 × ElementForm))
  /-- An array. -/
  | array (values : List ElementForm)

namespace ElementForm

mutual

/-- The bytes of an element value. -/
def encode : ElementForm → Bytes
  | string index => 115 :: beShort index.toNat
  | primitive type index => type.tag :: beShort index.toNat
  | enumConst type name => 101 :: (beShort type.toNat ++ beShort name.toNat)
  | classInfo descriptor => 99 :: beShort descriptor.toNat
  | nested type elements =>
    64 :: (beShort type.toNat ++ (beShort elements.length ++ (encodeNamed elements).flatten))
  | array values => 91 :: (beShort values.length ++ (encodeEach values).flatten)

/-- The bytes of each of some element values. -/
def encodeEach : List ElementForm → List Bytes
  | [] => []
  | value :: values => value.encode :: encodeEach values

/-- The bytes of each of some named element values. -/
def encodeNamed : List (UInt16 × ElementForm) → List Bytes
  | [] => []
  | (name, value) :: elements => (beShort name.toNat ++ value.encode) :: encodeNamed elements

end

/-- Elements are encoded one by one. -/
theorem encodeEach_eq_map (values : List ElementForm) : encodeEach values = values.map encode := by
  induction values with
  | nil => rfl
  | cons value values ih => rw [encodeEach, ih, List.map_cons]

/-- Named elements are encoded one by one, each behind the index of its name. -/
theorem encodeNamed_eq_map (elements : List (UInt16 × ElementForm)) :
    encodeNamed elements = elements.map fun e => beShort e.1.toNat ++ e.2.encode := by
  induction elements with
  | nil => rfl
  | cons e elements ih => rw [encodeNamed, ih, List.map_cons]

/-- Whether the lengths of all lists in an element value fit their fields. -/
inductive Fits : ElementForm → Prop
  | string (index : UInt16) : Fits (.string index)
  | primitive (type : PrimitiveType) (index : UInt16) : Fits (.primitive type index)
  | enumConst (type name : UInt16) : Fits (.enumConst type name)
  | classInfo (descriptor : UInt16) : Fits (.classInfo descriptor)
  | nested {type : UInt16} {elements : List (UInt16 × ElementForm)} :
      elements.length ≤ 65535 → (∀ e ∈ elements, Fits e.2) → Fits (.nested type elements)
  | array {values : List ElementForm} :
      values.length ≤ 65535 → (∀ v ∈ values, Fits v) → Fits (.array values)

end ElementForm

/-- Whether a numeric constant is shown as a decimal: integers and longs with the sign of their
thirty-two or sixty-four bits, floats and doubles as the number that their bits form. -/
inductive Constant.Shows : Constant → Bytes → Prop
  | integer (bits : UInt32) : Shows (.integer bits) (Numeral.ofInt (Int.bmod bits.toNat (2 ^ 32)))
  | long (bits : UInt64) : Shows (.long bits) (Numeral.ofInt (Int.bmod bits.toNat (2 ^ 64)))
  | float (bits : UInt32) : Shows (.float bits) (Numeral.ofNat bits.toNat)
  | double (bits : UInt64) : Shows (.double bits) (Numeral.ofNat bits.toNat)

/-- Whether the indices in an element value lead to constants of the kinds that are asked for, and
which value these make up. -/
inductive ElementForm.Stands (pool : Pool) (visible : Bool) : ElementForm → ElementValue → Prop
  | string {index : UInt16} {text : Bytes} : pool.Holds index (.utf8 text) →
      Stands pool visible (.string index) (.const 115 text)
  | primitive {type : PrimitiveType} {index : UInt16} {c : Constant} {text : Bytes} :
      pool.Holds index c → c.Shows text →
      Stands pool visible (.primitive type index) (.const type.tag text)
  | enumConst {i j : UInt16} {type name : Bytes} : pool.Holds i (.utf8 type) →
      pool.Holds j (.utf8 name) → Stands pool visible (.enumConst i j) (.enumConst type name)
  | classInfo {index : UInt16} {descriptor : Bytes} : pool.Holds index (.utf8 descriptor) →
      Stands pool visible (.classInfo index) (.classInfo descriptor)
  | nested {index : UInt16} {type : Bytes} {elements : List (UInt16 × ElementForm)}
      {names : List Bytes} {values : List ElementValue} : pool.Holds index (.utf8 type) →
      List.Forall₂ (fun e name => pool.Holds e.1 (.utf8 name)) elements names →
      List.Forall₂ (Stands pool visible) (elements.map Prod.snd) values →
      Stands pool visible (.nested index elements)
        (.nested (.mk type visible (collectElements (names.zip values))))
  | array {forms : List ElementForm} {values : List ElementValue} :
      List.Forall₂ (Stands pool visible) forms values →
      Stands pool visible (.array forms) (.array values)

/-- A number is found where a constant stands that shows it. -/
theorem numberText_eq_ok {index : UInt16} {c : Constant} {text : Bytes}
    (hholds : pool.Holds index c) (hshows : c.Shows text) : numberText pool index = .ok text := by
  have hget : c.tag ∈ numberTags → pool.get index numberTags = .ok c :=
    fun htag => Pool.get_eq_ok_iff.mpr ⟨hholds, htag⟩
  unfold numberText
  cases hshows with
  | integer bits =>
    have hsigned : bits.toInt32.toInt = Int.bmod bits.toNat (2 ^ 32) :=
      BitVec.toInt_eq_toNat_bmod bits.toBitVec
    rw [hget (by simp [Constant.tag, numberTags]), ← hsigned]
    rfl
  | long bits =>
    have hsigned : bits.toInt64.toInt = Int.bmod bits.toNat (2 ^ 64) :=
      BitVec.toInt_eq_toNat_bmod bits.toBitVec
    rw [hget (by simp [Constant.tag, numberTags]), ← hsigned]
    rfl
  | float bits =>
    rw [hget (by simp [Constant.tag, numberTags])]
    rfl
  | double bits =>
    rw [hget (by simp [Constant.tag, numberTags])]
    rfl

section

variable {levels : Nat}

/-- A text is read back. -/
theorem reads_string {index : UInt16} {text : Bytes} (h : pool.Holds index (.utf8 text)) :
    Reads o (readElementValue pool visible (levels + 1)) (ElementForm.string index).encode
      (.const 115 text) := by
  unfold readElementValue
  exact (Reads.u1 115).bind ((Reads.u2_toNat index).bind_last
    (Reads.look (Pool.utf8_eq_ok_iff.mpr h)).bind_pure)

/-- A number is read back as the text that shows it. -/
theorem reads_primitive {type : PrimitiveType} {index : UInt16} {c : Constant} {text : Bytes}
    (h : pool.Holds index c) (hshows : c.Shows text) :
    Reads o (readElementValue pool visible (levels + 1)) (ElementForm.primitive type index).encode
      (.const type.tag text) := by
  have htag : type.tag ≠ 115 := by cases type <;> decide
  have hprimitive : isPrimitiveTag type.tag = true := by cases type <;> decide
  unfold readElementValue
  refine (Reads.u1 type.tag).bind ?_
  rw [if_neg htag, if_pos hprimitive]
  exact (Reads.u2_toNat index).bind_last (Reads.look (numberText_eq_ok h hshows)).bind_pure

/-- A constant of an enumeration is read back. -/
theorem reads_enumConst {i j : UInt16} {type name : Bytes} (htype : pool.Holds i (.utf8 type))
    (hname : pool.Holds j (.utf8 name)) :
    Reads o (readElementValue pool visible (levels + 1)) (ElementForm.enumConst i j).encode
      (.enumConst type name) := by
  have hprimitive : isPrimitiveTag 101 = false := by decide
  unfold readElementValue
  refine (Reads.u1 101).bind ?_
  simp only [hprimitive]
  exact (Reads.u2_toNat i).bind ((Reads.u2_toNat j).bind_last
    ((Reads.look (Pool.utf8_eq_ok_iff.mpr htype)).bind_nil
      (Reads.look (Pool.utf8_eq_ok_iff.mpr hname)).bind_pure))

/-- A class is read back as its descriptor. -/
theorem reads_classInfo {index : UInt16} {descriptor : Bytes}
    (h : pool.Holds index (.utf8 descriptor)) :
    Reads o (readElementValue pool visible (levels + 1)) (ElementForm.classInfo index).encode
      (.classInfo descriptor) := by
  have hprimitive : isPrimitiveTag 99 = false := by decide
  unfold readElementValue
  refine (Reads.u1 99).bind ?_
  simp only [hprimitive]
  exact (Reads.u2_toNat index).bind_last (Reads.look (Pool.utf8_eq_ok_iff.mpr h)).bind_pure

/-- An array is read back when its values are, one level below. -/
theorem reads_array {forms : List ElementForm} {values : List ElementValue}
    (hlength : forms.length ≤ 65535) (h : List.Forall₂ (fun form v =>
      ∀ o, Reads o (readElementValue pool visible levels) form.encode v) forms values) :
    Reads o (readElementValue pool visible (levels + 1)) (ElementForm.array forms).encode
      (.array values) := by
  have hprimitive : isPrimitiveTag 91 = false := by decide
  have heach : ReadsEach (fun _ => readElementValue pool visible levels)
      (forms.map ElementForm.encode) values :=
    List.forall₂_map_left_iff.mpr (h.imp fun form v hform _ => hform)
  have hitems := Reads.counted_pure (o := o + 1) ElementValue.array
    (Reads.u2 _) (by rwa [List.length_map]) heach
  rw [List.length_map] at hitems
  rw [ElementForm.encode, ElementForm.encodeEach_eq_map]
  unfold readElementValue
  refine (Reads.u1 91).bind ?_
  simp only [hprimitive]
  exact hitems

/-- Named values are read back when their names are found and their values are read back. -/
theorem readsEach_named {readValue : Reader ElementValue}
    {elements : List (UInt16 × ElementForm)} {names : List Bytes} {values : List ElementValue}
    (hnames : List.Forall₂ (fun e name => pool.Holds e.1 (.utf8 name)) elements names)
    (hvalues : List.Forall₂ (fun e v => ∀ o, Reads o readValue e.2.encode v) elements values) :
    ReadsEach (fun _ => readNamed pool readValue)
      (elements.map fun e => beShort e.1.toNat ++ e.2.encode) (names.zip values) := by
  induction hnames generalizing values with
  | nil => exact .nil
  | cons hname _ ih =>
    cases hvalues with
    | cons hvalue hrest =>
      refine .cons (fun _ o => ?_) (ih hrest)
      exact (Reads.u2_toNat _).bind
        ((Reads.look_locate .elementName (Pool.utf8_eq_ok_iff.mpr hname)).bind_nil
          ((hvalue _).within _).bind_pure)

/-- A nested annotation is read back when its values are, two levels below. -/
theorem reads_nested {index : UInt16} {type : Bytes} {elements : List (UInt16 × ElementForm)}
    {names : List Bytes} {values : List ElementValue} (htype : pool.Holds index (.utf8 type))
    (hlength : elements.length ≤ 65535)
    (hnames : List.Forall₂ (fun e name => pool.Holds e.1 (.utf8 name)) elements names)
    (hvalues : List.Forall₂ (fun e v =>
      ∀ o, Reads o (readElementValue pool visible levels) e.2.encode v) elements values) :
    Reads o (readElementValue pool visible (levels + 2)) (ElementForm.nested index elements).encode
      (.nested (.mk type visible (collectElements (names.zip values)))) := by
  have hprimitive : isPrimitiveTag 64 = false := by decide
  have hpairs := Reads.counted_pure (o := o + 3) (fun pairs =>
    Annotation.mk type visible (collectElements pairs)) (Reads.u2 _)
    (by rwa [List.length_map]) (readsEach_named hnames hvalues)
  rw [List.length_map] at hpairs
  have hbody : Reads (o + 1) (readAnnotationBody pool visible (levels + 1))
      (beShort index.toNat ++ (beShort elements.length ++
        (elements.map fun e => beShort e.1.toNat ++ e.2.encode).flatten))
      (.mk type visible (collectElements (names.zip values))) := by
    unfold readAnnotationBody
    exact (Reads.u2_toNat index).bind
      ((Reads.look_locate .annotationType (Pool.utf8_eq_ok_iff.mpr htype)).bind_nil hpairs)
  rw [ElementForm.encode, ElementForm.encodeNamed_eq_map]
  unfold readElementValue
  refine (Reads.u1 64).bind ?_
  simp only [hprimitive]
  exact hbody.bind_pure

end

namespace ElementForm

/-- Every element takes three bytes or more. -/
theorem three_le_length_encode (form : ElementForm) : 3 ≤ form.encode.length := by
  cases form with
  | nested type elements =>
    rw [encode, List.length_cons, List.length_append, length_beShort]
    omega
  | array values =>
    rw [encode, List.length_cons, List.length_append, length_beShort]
    omega
  | _ => simp [encode, beShort]

/-- A value is shorter than the array it stands in. -/
theorem length_encode_lt_array {form : ElementForm} {forms : List ElementForm} (h : form ∈ forms) :
    form.encode.length < (array forms).encode.length := by
  have hle : form.encode.length ≤ (forms.map encode).flatten.length := by
    rw [List.length_flatten]
    exact List.le_sum_of_mem (List.mem_map_of_mem (List.mem_map_of_mem h))
  rw [encode, encodeEach_eq_map, List.length_cons, List.length_append]
  omega

/-- A value is shorter by two than the annotation it is an element of. -/
theorem length_encode_lt_nested (type : UInt16) {e : UInt16 × ElementForm}
    {elements : List (UInt16 × ElementForm)} (h : e ∈ elements) :
    e.2.encode.length + 1 < (nested type elements).encode.length := by
  have hle : (beShort e.1.toNat ++ e.2.encode).length ≤
      (elements.map fun e => beShort e.1.toNat ++ e.2.encode).flatten.length := by
    rw [List.length_flatten]
    exact List.le_sum_of_mem (List.mem_map_of_mem (List.mem_map_of_mem h))
  rw [List.length_append, length_beShort] at hle
  rw [encode, encodeNamed_eq_map, List.length_cons, List.length_append, List.length_append]
  omega

end ElementForm

/-- An element value is read back with a bound that covers its bytes. -/
theorem reads_elementForm {form : ElementForm} {value : ElementValue} (hfits : form.Fits)
    (hstands : form.Stands pool visible value) {levels : Nat}
    (hlevels : form.encode.length ≤ levels) :
    Reads o (readElementValue pool visible levels) form.encode value := by
  induction levels using Nat.strongRec generalizing form value o with
  | ind levels ih =>
    have hthree := form.three_le_length_encode
    obtain ⟨l, rfl⟩ : ∃ l, levels = l + 2 := ⟨levels - 2, by omega⟩
    cases hstands with
    | string h => exact reads_string h
    | primitive h hshows => exact reads_primitive h hshows
    | enumConst htype hname => exact reads_enumConst htype hname
    | classInfo h => exact reads_classInfo h
    | @nested index type elements names values htype hnames hvalues =>
      cases hfits with
      | nested hlength hall =>
        -- the values stand two levels below
        have hbelow : ∀ e ∈ elements, e.2.Fits ∧ e.2.encode.length ≤ l := by
          intro e he
          have hlt := ElementForm.length_encode_lt_nested index he
          exact ⟨hall e he, by omega⟩
        refine reads_nested htype hlength hnames ?_
        have hboth := (List.forall₂_and_left _ _).mpr ⟨hbelow, List.forall₂_map_left_iff.mp hvalues⟩
        refine hboth.imp ?_
        rintro e v ⟨⟨hfits, hle⟩, hstands⟩ o
        exact ih l (by omega) hfits hstands hle
    | @array forms values hvalues =>
      cases hfits with
      | array hlength hall =>
        -- the values stand one level below
        have hbelow : ∀ form ∈ forms, form.Fits ∧ form.encode.length ≤ l + 1 := by
          intro form hform
          have hlt := ElementForm.length_encode_lt_array hform
          exact ⟨hall form hform, by omega⟩
        refine reads_array hlength (((List.forall₂_and_left _ _).mpr ⟨hbelow, hvalues⟩).imp ?_)
        rintro form v ⟨⟨hfits, hle⟩, hstands⟩ o
        exact ih (l + 1) (by omega) hfits hstands hle

/-- One more element adds its name, unless the name is there already. -/
theorem map_fst_putElement (name : Bytes) (value : ElementValue)
    (elements : List (Bytes × ElementValue)) :
    (putElement name value elements).map Prod.fst =
      if name ∈ elements.map Prod.fst then elements.map Prod.fst
      else elements.map Prod.fst ++ [name] := by
  induction elements with
  | nil => rfl
  | cons e elements ih =>
    rw [putElement]
    by_cases heq : e.1 = name
    · simp [heq]
    · have hne : ¬ name = e.1 := fun h => heq h.symm
      rw [if_neg heq, List.map_cons, ih]
      simp only [List.map_cons, List.mem_cons, hne, false_or]
      split <;> rfl

/-- Elements that are collected have distinct names. -/
theorem nodup_collectElements (pairs : List (Bytes × ElementValue)) :
    ((collectElements pairs).map Prod.fst).Nodup := by
  have hfold : ∀ elements : List (Bytes × ElementValue), (elements.map Prod.fst).Nodup →
      ((pairs.foldl (fun es e => putElement e.1 e.2 es) elements).map Prod.fst).Nodup := by
    induction pairs with
    | nil => exact fun elements h => h
    | cons e pairs ih =>
      intro elements h
      refine ih _ ?_
      rw [map_fst_putElement]
      split
      · exact h
      · rename_i hmem
        exact List.nodup_append.mpr ⟨h, List.nodup_singleton _, by
          rintro a ha b hb rfl
          exact hmem (List.mem_singleton.mp hb ▸ ha)⟩
  exact hfold [] List.nodup_nil

/-- Element values are read back whatever their depth and whatever follows them, and of several
elements with one name the last one stands. Whatever the bytes are, a value that is read has taken
three bytes or more of those that were left, and no bound that covers them has a part in the
outcome. -/
theorem element_values_read_back (pool : Pool) (visible : Bool) :
    (∀ (form : ElementForm) (value : ElementValue), form.Fits → form.Stands pool visible value →
      ∀ levels, form.encode.length ≤ levels →
        ∀ o, Reads o (readElementValue pool visible levels) form.encode value) ∧
    (∀ pairs, ((collectElements pairs).map Prod.fst).Nodup ∧
      ∀ name, (collectElements pairs).lookup name = pairs.reverse.lookup name) ∧
    (∀ levels, TakesAtLeast 3 (readElementValue pool visible levels) ∧
      TakesAtLeast 4 (readAnnotationBody pool visible levels)) ∧
    ∀ (levels : Nat) (c : Cursor), c.rest.length ≤ levels →
      readElementValue pool visible levels c = readElementValue pool visible c.rest.length c ∧
        readAnnotationBody pool visible levels c =
          readAnnotationBody pool visible c.rest.length c := by
  refine ⟨fun form value hfits hstands levels hlevels o => reads_elementForm hfits hstands hlevels,
    fun pairs => ⟨nodup_collectElements pairs, lookup_collectElements pairs⟩,
    takesAtLeast_read pool visible, fun levels c hlevels => ?_⟩
  obtain ⟨hvalue, hbody⟩ := agreeUpTo_read pool visible hlevels (Nat.le_refl _)
  exact ⟨hvalue c (Nat.le_refl _), hbody c (Nat.le_refl _)⟩

/-- An array of a class and an annotation that gives one element twice: a string, then the number
minus one. -/
theorem element_values_read_back_repeated :
    let pool : Pool := ⟨#[none, some (.utf8 "LA;"), some (.utf8 "k"), some (.integer 0xffffffff)]⟩
    let form : ElementForm :=
      .array [.classInfo 1, .nested 1 [(2, .string 2), (2, .primitive .int 3)]]
    let value : ElementValue :=
      .array [.classInfo "LA;", .nested (.mk "LA;" true [("k", .const 73 "-1")])]
    (∀ o, Reads o (readElementValue pool true 21) form.encode value) ∧
      readElementValue pool true 99 ⟨0, form.encode⟩ =
        readElementValue pool true form.encode.length ⟨0, form.encode⟩ := by
  intro pool form value
  have htype : pool.Holds 1 (.utf8 "LA;") := by decide
  have hname : pool.Holds 2 (.utf8 "k") := by decide
  have hnumber : pool.Holds 3 (.integer 0xffffffff) := by decide
  have htext : Numeral.ofInt (Int.bmod (0xffffffff : UInt32).toNat (2 ^ 32)) = "-1" := by
    decide +kernel
  have hshows : (Constant.integer 0xffffffff).Shows "-1" := htext ▸ .integer 0xffffffff
  have hfits : form.Fits := by
    refine .array (by decide) ?_
    simp only [List.mem_cons, List.not_mem_nil, or_false, forall_eq_or_imp, forall_eq]
    refine ⟨.classInfo 1, .nested (by decide) ?_⟩
    simp only [List.mem_cons, List.not_mem_nil, or_false, forall_eq_or_imp, forall_eq]
    exact ⟨.string 2, .primitive .int 3⟩
  let names : List Bytes := ["k", "k"]
  let given : List ElementValue := [.const 115 "k", .const 73 "-1"]
  let kept : List (Bytes × ElementValue) := [("k", .const 73 "-1")]
  have hlast : collectElements (names.zip given) = kept := rfl
  have hnested : ElementForm.Stands pool true (.nested 1 [(2, .string 2), (2, .primitive .int 3)])
      (.nested (.mk "LA;" true kept)) := by
    rw [← hlast]
    exact .nested htype (.cons hname (.cons hname .nil))
      (.cons (.string hname) (.cons (.primitive hnumber hshows) .nil))
  have hstands : form.Stands pool true value :=
    .array (.cons (.classInfo htype) (.cons hnested .nil))
  obtain ⟨hreads, -, -, hbound⟩ := element_values_read_back pool true
  exact ⟨hreads form value hfits hstands 21 (by decide), (hbound 99 ⟨0, form.encode⟩ (by decide)).1⟩

end ReturnAudit.ClassFile
