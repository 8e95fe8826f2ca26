import ReturnAudit.Assembly.Encode
import ReturnAudit.Proofs.Assembly.OperandForms

/-!
# What a pool was asked for

A name and its descriptor are filed under one text, which does not tell where the name ends. What
does is who asked for it: only the lines of assembly ask for names with descriptors, so every such
constant of the pool of a class goes back to a member that some line names. The rest of the encoder
asks for texts and classes alone and leaves this as it is.
-/

namespace ReturnAudit.Assembly

open ClassFile (Constant)

namespace PoolBuilder

/-- What is known of a constant beyond standing for its key: no dots are left in class names, and a
name was asked for with its descriptor. -/
def Traced (asked : Bytes → Bytes → Prop) (p : PoolBuilder) (c : Constant) : Key → Prop
  | .classRef name => 46 ∉ name
  | .nameAndType text => ∃ name descriptor i j, asked name descriptor ∧
      text = name ++ ":" ++ descriptor ∧ c = .nameAndType i j ∧ p.Has (.utf8 name) i ∧
        p.Has (.utf8 descriptor) j
  | _ => True

variable {asked : Bytes → Bytes → Prop}

/-- What is known of a constant is known in every later pool. -/
theorem Traced.later {p q : PoolBuilder} {c : Constant} {key : Key} (h : Traced asked p c key)
    (hl : p.Later q) : Traced asked q c key := by
  cases key with
  | nameAndType text =>
    obtain ⟨name, descriptor, i, j, hasked, htext, hc, hi, hj⟩ := h
    exact ⟨name, descriptor, i, j, hasked, htext, hc, hl _ _ hi, hl _ _ hj⟩
  | _ => exact h

/-- A pool in which every name with a descriptor was asked for. -/
structure Requested (asked : Bytes → Bytes → Prop) (p : PoolBuilder) : Prop where
  /-- Every constant stands for its key. -/
  sound : p.Sound
  /-- Every constant was asked for. -/
  traced : ∀ e ∈ p.filed, Traced asked p e.2 e.1

/-- The empty pool holds nothing that was not asked for. -/
theorem requested_empty : Requested asked empty :=
  ⟨sound_empty, fun _ he => (List.not_mem_nil he).elim⟩

/-- Adding a constant that was asked for. -/
theorem Requested.add {p : PoolBuilder} (h : Requested asked p) {key : Key} {c : Constant}
    (hc : p.Stands c key) (ht : Traced asked p c key) :
    Requested asked (PoolBuilder.add key c p).2 := by
  obtain ⟨i, q, hadd, hgrown, -⟩ := add_spec h.sound hc
  refine ⟨by rw [hadd]; exact hgrown.sound, ?_⟩
  have hfiled : ∀ e ∈ q.filed, e = (key, c) ∨ e ∈ p.filed := by
    cases hfind : indexOf? key p.filed p.size with
    | some i =>
      rw [add_of_has hfind] at hadd
      cases hadd
      exact fun e he => .inr he
    | none =>
      simp only [PoolBuilder.add, hfind] at hadd
      cases hadd
      exact fun e he => List.mem_cons.mp he
  rw [hadd]
  intro e he
  rcases hfiled e he with rfl | he
  · exact ht.later hgrown.later
  · exact (h.traced e he).later hgrown.later

end PoolBuilder

open PoolBuilder (Requested Traced Files requested_empty)

variable {asked : Bytes → Bytes → Prop} {α β ε : Type}

/-- Whether a part of the encoder asks for nothing else. -/
def Keeps (asked : Bytes → Bytes → Prop) (e : Encoder α) : Prop :=
  ∀ p, Requested asked p → Requested asked (e p).2

namespace Keeps

/-- A value asks for nothing. -/
theorem pure (a : α) : Keeps asked (Pure.pure a) :=
  fun _ hp => hp

/-- Two steps one after another ask for nothing else when neither of them does. -/
theorem bind {e : Encoder α} {f : α → Encoder β} (h : Keeps asked e)
    (h' : ∀ a, Keeps asked (f a)) : Keeps asked (e >>= f) :=
  fun p hp => h' _ _ (h p hp)

/-- A step for each element of a list asks for nothing else when none of them does. -/
theorem mapM {l : List α} {e : α → Encoder β} (h : ∀ a, Keeps asked (e a)) :
    Keeps asked (l.mapM e) := by
  induction l with
  | nil => exact pure []
  | cons a l ih =>
    rw [List.mapM_cons]
    exact (h a).bind fun b => ih.bind fun bs => pure _

/-- Adding a constant that holds the index of another key. -/
theorem add {request : Encoder UInt16} {part key : Key} (hfiles : Files request part)
    (h : Keeps asked request) {make : UInt16 → Constant}
    (hadd : ∀ (p : PoolBuilder) i, p.Has part i →
      p.Stands (make i) key ∧ Traced asked p (make i) key) :
    Keeps asked (do let i ← request; PoolBuilder.add key (make i)) := by
  intro p hp
  obtain ⟨i, q, hq, -, hi, -⟩ := hfiles p hp.sound
  have hkept := h p hp
  rw [hq] at hkept
  rw [run_bind hq]
  exact hkept.add (hadd q i hi).1 (hadd q i hi).2

/-- Adding a constant that holds the indices of two other keys. -/
theorem add₂ {request request' : Encoder UInt16} {part part' key : Key}
    (hfiles : Files request part) (hfiles' : Files request' part') (h : Keeps asked request)
    (h' : Keeps asked request') {make : UInt16 → UInt16 → Constant}
    (hadd : ∀ (p : PoolBuilder) i j, p.Has part i → p.Has part' j →
      p.Stands (make i j) key ∧ Traced asked p (make i j) key) :
    Keeps asked (do let i ← request; let j ← request'; PoolBuilder.add key (make i j)) := by
  intro p hp
  obtain ⟨i, q, hq, -, hi, -⟩ := hfiles p hp.sound
  have hkept := h p hp
  rw [hq] at hkept
  obtain ⟨j, r, hr, hqr, hj, -⟩ := hfiles' q hkept.sound
  have hkept' := h' q hkept
  rw [hr] at hkept'
  rw [run_bind hq, run_bind hr]
  have hir := hqr.later _ _ hi
  exact hkept'.add (hadd r i j hir hj).1 (hadd r i j hir hj).2

end Keeps

section Requests

open PoolBuilder

/-- A text is no name with a descriptor. -/
theorem keeps_utf8 (text : Bytes) : Keeps asked (utf8 text) :=
  fun _ hp => hp.add rfl trivial

/-- A class is no name with a descriptor, and no dots are left in its name. -/
theorem keeps_classRef (name : Bytes) : Keeps asked (classRef name) :=
  .add (files_utf8 _) (keeps_utf8 _) fun _ i hi => ⟨⟨i, rfl, hi⟩, Descriptor.not_mem_slashed name⟩

/-- A constant text is no name with a descriptor. -/
theorem keeps_string (text : Bytes) : Keeps asked (string text) :=
  .add (files_utf8 _) (keeps_utf8 _) fun _ i hi => ⟨⟨i, rfl, hi⟩, trivial⟩

/-- A number is no name with a descriptor. -/
theorem keeps_integer (value : Int) : Keeps asked (integer value) :=
  fun _ hp => hp.add rfl trivial

/-- A name with a descriptor can be added if it is asked for. -/
theorem keeps_nameAndType {name descriptor : Bytes} (h : asked name descriptor) :
    Keeps asked (nameAndType name descriptor) :=
  .add₂ (files_utf8 name) (files_utf8 descriptor) (keeps_utf8 _) (keeps_utf8 _) fun _ i j hi hj =>
    ⟨⟨name, descriptor, i, j, rfl, rfl, hi, hj⟩, name, descriptor, i, j, h, rfl, rfl, hi, hj⟩

/-- A member can be added if its name is asked for with its descriptor. -/
theorem keeps_member {make : UInt16 → UInt16 → Constant} (hmake : NamesMember make)
    (owner : Bytes) {name descriptor : Bytes} (h : asked name descriptor) :
    Keeps asked (member make owner name descriptor) := by
  refine .add₂ (files_classRef owner) (files_nameAndType name descriptor) (keeps_classRef _)
    (keeps_nameAndType h) fun p i j hi hj => ⟨?_, trivial⟩
  exact stands_member hmake owner name descriptor hi hj

end Requests

section Parts

/-- Writing an index asks for what the index is of. -/
theorem Keeps.ref {request : Encoder UInt16} (h : Keeps asked request) :
    Keeps asked (Assembly.ref request) :=
  h.bind fun _ => .pure _

/-- An attribute only asks for its name. -/
theorem keeps_attribute (name : String) (info : Bytes) : Keeps asked (encodeAttribute name info) :=
  (keeps_utf8 _).ref.bind fun _ => .pure _

/-- An element with a text asks for no name with a descriptor. -/
theorem keeps_string_value (value : Bytes) : Keeps asked (encodeString value) :=
  (keeps_utf8 _).ref.bind fun _ => .pure _

/-- An array asks for no name with a descriptor. -/
theorem keeps_array (values : List Bytes) : Keeps asked (encodeArray values) :=
  (Keeps.mapM keeps_string_value).bind fun _ => .pure _

/-- A constant of an enumeration asks for no name with a descriptor: its name and its type are texts
of their own. -/
theorem keeps_enum (value : EnumValue) : Keeps asked (encodeEnum value) :=
  (keeps_utf8 _).ref.bind fun _ => (keeps_utf8 _).ref.bind fun _ => .pure _

/-- An element with a name asks for what its value asks for. -/
theorem keeps_named {encodeValue : α → Encoder Bytes} (h : ∀ v, Keeps asked (encodeValue v))
    (element : Bytes × α) : Keeps asked (encodeNamed encodeValue element) :=
  (keeps_utf8 _).ref.bind fun _ => (h _).bind fun _ => .pure _

/-- An annotation asks for no name with a descriptor. -/
theorem keeps_annotationBody (a : Annotation) : Keeps asked (encodeAnnotationBody a) :=
  (keeps_utf8 _).ref.bind fun _ => (Keeps.mapM (keeps_named keeps_string_value)).bind fun _ =>
    (Keeps.mapM (keeps_named keeps_array)).bind fun _ =>
      (Keeps.mapM (keeps_named keeps_enum)).bind fun _ => .pure _

/-- An attribute of annotations asks for no name with a descriptor. -/
theorem keeps_annotationList (name : String) (annotations : List Annotation) :
    Keeps asked (encodeAnnotationList name annotations) := by
  unfold encodeAnnotationList
  split
  · exact .pure []
  · refine (Keeps.mapM keeps_annotationBody).bind fun _ => ?_
    exact (keeps_attribute _ _).bind fun _ => .pure _

/-- The annotations of a class or member ask for no name with a descriptor. -/
theorem keeps_annotations (annotations : List Annotation) :
    Keeps asked (encodeAnnotations annotations) :=
  (keeps_annotationList _ _).bind fun _ => (keeps_annotationList _ _).bind fun _ => .pure _

/-- A class that may be missing asks for no name with a descriptor. -/
theorem keeps_optionalClass (name : Bytes) : Keeps asked (encodeOptionalClass name) := by
  unfold encodeOptionalClass
  split
  · exact .pure _
  · exact (keeps_classRef _).ref

/-- A protected range asks for no name with a descriptor. -/
theorem keeps_handler (h : Handler) : Keeps asked (encodeHandler h) :=
  (keeps_optionalClass _).bind fun _ => .pure _

/-- A line table asks for no name with a descriptor. -/
theorem keeps_lineTable (firstLine : Int) (pcs : List Nat) :
    Keeps asked (encodeLineTable firstLine pcs) := by
  unfold encodeLineTable
  split
  · exact (keeps_attribute _ _).bind fun _ => .pure _
  · exact .pure _

/-- A body asks for no name with a descriptor besides those of its lines. -/
theorem keeps_code (m : Method) (code : Bytes) (pcs : List Nat) :
    Keeps asked (encodeCode m code pcs) :=
  (Keeps.mapM keeps_handler).bind fun _ => (keeps_lineTable _ _).bind fun _ => keeps_attribute _ _

/-- A field asks for no name with a descriptor: the two are texts of their own. -/
theorem keeps_field (f : Field) : Keeps asked (encodeField f) :=
  (keeps_utf8 _).ref.bind fun _ => (keeps_utf8 _).ref.bind fun _ => .pure _

end Parts

/-- Whether a part that may fail asks for nothing else when it succeeds. -/
def KeepsIf (asked : Bytes → Bytes → Prop) (e : StateT PoolBuilder (Except ε) α) : Prop :=
  ∀ p a q, Requested asked p → e p = .ok (a, q) → Requested asked q

namespace KeepsIf

/-- A value asks for nothing. -/
theorem pure (a : α) : KeepsIf asked (Pure.pure a : StateT PoolBuilder (Except ε) α) := by
  intro p b q hp h
  obtain ⟨-, rfl⟩ := of_run_pure h
  exact hp

/-- A step that fails asks for nothing. -/
theorem throw (e : ε) : KeepsIf asked (throw e : StateT PoolBuilder (Except ε) α) := by
  intro p a q _ h
  cases h

/-- Two steps one after another ask for nothing else when neither of them does. -/
theorem bind {e : StateT PoolBuilder (Except ε) α} {f : α → StateT PoolBuilder (Except ε) β}
    (h : KeepsIf asked e) (h' : ∀ a, KeepsIf asked (f a)) : KeepsIf asked (e >>= f) := by
  intro p b q hp hrun
  obtain ⟨a, t, ha, hb⟩ := of_run_bind hrun
  exact h' a t b q (h p a t hp ha) hb

/-- A step for each element of a list asks for nothing else when none of them does. -/
theorem mapM {l : List α} {e : α → StateT PoolBuilder (Except ε) β}
    (h : ∀ a ∈ l, KeepsIf asked (e a)) : KeepsIf asked (l.mapM e) := by
  induction l with
  | nil => exact pure []
  | cons a l ih =>
    rw [List.mapM_cons]
    refine (h a List.mem_cons_self).bind fun b => ?_
    exact (ih fun a ha => h a (List.mem_cons_of_mem _ ha)).bind fun bs => pure _

end KeepsIf

/-- A request for the pool of a step that may fail. -/
theorem Keeps.pooled {request : StateM PoolBuilder α} (h : Keeps asked request) :
    KeepsIf asked (Assembly.pooled request) := by
  intro p a q hp hrun
  obtain rfl : (request p).2 = q := congrArg Prod.snd (Except.ok.inj hrun)
  exact h p hp

/-- A part of the encoder as a step that may fail. -/
theorem Keeps.lift {e : Encoder α} (h : Keeps asked e) : KeepsIf asked (Assembly.lift e) := by
  intro p a q hp hrun
  obtain rfl : (e p).2 = q := congrArg Prod.snd (Except.ok.inj hrun)
  exact h p hp

/-- Whether the member that a line names, if it names one, is among those that are asked for. -/
def Asks (asked : Bytes → Bytes → Prop) (line : Bytes) : Prop :=
  ∀ r, RefersTo line r → asked r.name r.descriptor

/-- An operand asks for the member that its line names, or for no member. -/
theorem IndexForm.keeps {line : Bytes} {op : Opcode} {request : StateM PoolBuilder UInt16}
    {key : Key} {f : UInt16 → Bytes} (h : IndexForm op (splitLine line).2 request key f)
    (hop : Opcode.ofMnemonic? (splitLine line).1 = some op) (hasks : Asks asked line) :
    Keeps asked request := by
  cases h with
  | member hform => exact keeps_member hform.namesMember _ (hasks _ (hform.refersTo hop))
  | classRef => exact keeps_classRef _
  | string => exact keeps_string _
  | integer => exact keeps_integer _

/-- A line asks for the member that it names, or for no member. -/
theorem keepsIf_assembleLine {line : Bytes} (h : Asks asked line) :
    KeepsIf asked (assembleLine line) := by
  unfold assembleLine
  dsimp only
  cases hop : Opcode.ofMnemonic? (splitLine line).1 with
  | none => exact .throw _
  | some op =>
    refine .bind ?_ fun bytes => .pure _
    have hstep := operandStep op (splitLine line).1 (splitLine line).2
    generalize assembleOperand op (splitLine line).1 (splitLine line).2 = step at hstep ⊢
    cases hstep with
    | fault => exact .throw _
    | plain => exact .pure _
    | index hform => exact (hform.keeps hop h).pooled.bind fun i => .pure _

/-- Lines ask for nothing else when each of them does not. -/
theorem keepsIf_assembleFrom {lines : List Bytes} (h : ∀ line ∈ lines, Asks asked line)
    (number pc : Nat) : KeepsIf asked (assembleFrom number pc lines) := by
  induction lines generalizing number pc with
  | nil => exact .pure _
  | cons line lines ih =>
    rintro p ⟨code, pcs⟩ q hp hrun
    obtain ⟨b, t, code', pcs', hline, hrest, -, -⟩ := of_assembleFrom_cons hrun
    have hkept := keepsIf_assembleLine (h line List.mem_cons_self) p b t hp hline
    exact ih (fun l hl => h l (List.mem_cons_of_mem _ hl)) _ _ t _ q hkept hrest

/-- A method asks for what its lines ask for. -/
theorem keepsIf_method {m : Method} (h : ∀ line ∈ m.code, Asks asked line) :
    KeepsIf asked (encodeMethod m) := by
  have hassemble : KeepsIf asked (assembleCode m) := fun p out q hp hrun =>
    keepsIf_assembleFrom h 1 0 p out q hp (of_mapError hrun)
  have hcode : KeepsIf asked (encodeMethodCode m) := by
    unfold encodeMethodCode
    split
    · exact .pure _
    · exact hassemble.bind fun out => (keeps_code m _ _).lift.bind fun written => .pure _
  exact (keeps_utf8 _).ref.lift.bind fun _ => (keeps_utf8 _).ref.lift.bind fun _ =>
    hcode.bind fun _ => (keeps_annotations _).lift.bind fun _ => .pure _

/-- The whole of a class asks for nothing but what its lines ask for. -/
theorem keepsIf_body {c : Class} (h : ∀ m ∈ c.methods, ∀ line ∈ m.code, Asks asked line) :
    KeepsIf asked (encodeBody c) := by
  refine (keeps_classRef _).ref.lift.bind fun _ => (keeps_optionalClass _).lift.bind fun _ => ?_
  refine (Keeps.mapM fun i => (keeps_classRef i).ref).lift.bind fun _ => ?_
  refine (Keeps.mapM keeps_field).lift.bind fun _ => ?_
  refine (KeepsIf.mapM fun m hm => keepsIf_method (h m hm)).bind fun _ => ?_
  exact (keeps_annotations _).lift.bind fun _ => .pure _

end ReturnAudit.Assembly
