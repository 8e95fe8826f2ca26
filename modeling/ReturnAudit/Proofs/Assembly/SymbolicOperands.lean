import ReturnAudit.Proofs.Assembly.PoolRequests
import ReturnAudit.Proofs.Assembly.RoundTrip
import ReturnAudit.Proofs.ClassFile.DecodedBodies

/-!
# Operands through the constant pool

A line names a class or a member, and the instruction that is read back for it carries what its
index leads to. Class names and the owners of members come back as they were written. A name and its
descriptor come back as some line asked for them whose name and descriptor make up the same text
around a colon, so they come back exactly when no two lines divide one such text in different
places.
-/

namespace ReturnAudit.Assembly

open ClassFile (Pool Reads MemberRef Instruction Decodes readInstruction)
open PoolBuilder (Requested)

/-- A pool index leads to one key. -/
theorem PoolBuilder.Has.unique {p : PoolBuilder} {key : Key} {i j : UInt16} (h : p.Has key i)
    (h' : p.Has key j) : i = j :=
  Option.some.inj (h.symm.trans h')

variable {asked : Bytes → Bytes → Prop} {P : PoolBuilder} {i : UInt16}

/-- What a name with a descriptor leads to in a finished pool: something that was asked for and that
makes up the same text. -/
structure Settles (asked : Bytes → Bytes → Prop) (P : PoolBuilder) (name descriptor : Bytes)
    (settled : Bytes × Bytes) : Prop where
  /-- Someone asked for it. -/
  asked : asked settled.1 settled.2
  /-- The text is the same. -/
  text : settled.1 ++ ":" ++ settled.2 = name ++ ":" ++ descriptor
  /-- It is found at the index of that text. -/
  found : ∃ j, P.Has (.nameAndType (name ++ ":" ++ descriptor)) j ∧
    P.finished.nameAndType j = .ok settled

section

variable (hP : Requested asked P) (hsize : P.size ≤ 65534)
include hP hsize

/-- At the index of a name with a descriptor one is found that it settles to. -/
theorem exists_settles {name descriptor : Bytes} {j : UInt16}
    (h : P.Has (.nameAndType (name ++ ":" ++ descriptor)) j) :
    ∃ settled, Settles asked P name descriptor settled ∧
      P.finished.nameAndType j = .ok settled := by
  obtain ⟨c, hmem, hholds⟩ := PoolBuilder.exists_filed hP.sound hsize h
  obtain ⟨name', descriptor', k, l, hasked, htext, hc, hk, hl⟩ := hP.traced _ hmem
  obtain rfl : c = .nameAndType k l := hc
  have hfound : P.finished.nameAndType j = .ok (name', descriptor') :=
    Pool.nameAndType_eq_ok_iff.mpr ⟨k, l, hholds, PoolBuilder.holds_utf8 hP.sound hsize hk,
      PoolBuilder.holds_utf8 hP.sound hsize hl⟩
  exact ⟨(name', descriptor'), ⟨hasked, htext.symm, j, h, hfound⟩, hfound⟩

/-- A member is found with the owner that was asked for, since no dot is left in it. -/
theorem member_eq {tag : Nat} {owner name descriptor : Bytes}
    (h : P.Has (.member tag (Descriptor.slashed owner ++ "." ++ name ++ ":" ++ descriptor)) i) :
    ∃ settled, Settles asked P name descriptor settled ∧
      P.finished.member i = .ok ⟨Descriptor.slashed owner, settled.1, settled.2, tag = 11⟩ := by
  have hdot : Bytes.ofString "." = [46] := by decide
  obtain ⟨owner', typed, j, k, htext, hj, hk, hmember⟩ :=
    PoolBuilder.exists_member hP.sound hsize h
  obtain ⟨d, hfiled, -⟩ := PoolBuilder.exists_filed hP.sound hsize hj
  have hsplit : Descriptor.slashed owner = owner' ∧ name ++ ":" ++ descriptor = typed := by
    refine Bytes.append_cons_inj (Descriptor.not_mem_slashed owner) (hP.traced _ hfiled) ?_
    simpa [hdot] using htext
  obtain ⟨rfl, rfl⟩ := hsplit
  obtain ⟨settled, hsettles, hnt⟩ := exists_settles hP hsize hk
  exact ⟨settled, hsettles, Pool.member_eq_ok_iff.mpr
    (hmember _ _ (Pool.nameAndType_eq_ok_iff.mp hnt))⟩

end

/-- Behind an opcode that takes a class or a member, the operand bytes hold the index of a
constant. -/
private theorem exists_indexForm {op : Opcode} {mnemonic operand b : Bytes} {p q : PoolBuilder}
    (hop : op.hasMemberOperand = true ∨ op.hasClassOperand = true) (hp : p.Sound)
    (h : assembleOperand op mnemonic operand p = .ok (b, q)) :
    ∃ request key f i, IndexForm op operand request key f ∧ q.Has key i ∧ b = f i := by
  obtain ⟨v, hform, -⟩ | ⟨request, key, f, i, hform, hrun, rfl⟩ :=
    (operandStep op mnemonic operand).of_run h
  · obtain ⟨hmember, hclass⟩ := hform.no_constant
    rw [hmember, hclass, or_self] at hop
    cases hop
  · exact ⟨request, key, f, i, hform, hform.files.has hp hrun, rfl⟩

/-- A line with an opcode that takes a member names one, and its bytes hold the index of that
member. -/
theorem exists_member_index {line b : Bytes} {op : Opcode} {p q : PoolBuilder}
    (hop : Opcode.ofMnemonic? (splitLine line).1 = some op) (hmember : op.hasMemberOperand = true)
    (hp : p.Sound) (h : assembleLine line p = .ok (b, q)) :
    ∃ (r : MemberRef) (padding : Bytes) (i : UInt16) (tag : Nat), RefersTo line r ∧
      b = op.code :: (beShort i.toNat ++ padding) ∧ op.operands = .member padding.length ∧
        q.Has (.member tag (r.owner ++ "." ++ r.name ++ ":" ++ r.descriptor)) i ∧
          r.isInterface = decide (tag = 11) := by
  obtain ⟨op', b', hop', rfl, hb'⟩ := of_assembleLine h
  obtain rfl := Option.some.inj (hop.symm.trans hop')
  obtain ⟨request, key, f, i, hform, hi, rfl⟩ := exists_indexForm (.inl hmember) hp hb'
  cases hform with
  | member hform => exact ⟨_, _, i, _, hform.refersTo hop, rfl, hform.operands_eq, hi, rfl⟩
  | classRef hoperands =>
    rw [Opcode.hasMemberOperand, hoperands] at hmember
    cases hmember
  | string hldc | integer hldc =>
    rw [hldc] at hmember
    cases hmember

/-- The bytes of a line that names a class hold the index of that class. -/
theorem RefersToClass.exists_index {line b name : Bytes} {p q : PoolBuilder}
    (hname : RefersToClass line name) (hp : p.Sound) (h : assembleLine line p = .ok (b, q)) :
    ∃ (op : Opcode) (padding : Bytes) (i : UInt16),
      b = op.code :: (beShort i.toNat ++ padding) ∧ op.operands = .classRef padding.length ∧
        q.Has (.classRef name) i := by
  obtain ⟨op, hop, hclass, rfl⟩ := hname
  obtain ⟨op', b', hop', rfl, hb'⟩ := of_assembleLine h
  obtain rfl := Option.some.inj (hop.symm.trans hop')
  obtain ⟨request, key, f, i, hform, hi, rfl⟩ := exists_indexForm (.inr hclass) hp hb'
  cases hform with
  | classRef hoperands => exact ⟨op, _, i, rfl, by rw [List.length_replicate, hoperands], hi⟩
  | member hform =>
    rw [Opcode.hasClassOperand, hform.operands_eq] at hclass
    cases hclass
  | string hldc | integer hldc =>
    rw [hldc] at hclass
    cases hclass

section

variable {cp : Pool} {op : Opcode} {padding : Bytes} {pc : Nat} {insn : Instruction}

/-- The member at an index is the operand of the instruction that holds the index. -/
theorem member_of_reads {m : MemberRef} (hop : op.operands = .member padding.length)
    (hm : cp.member i = .ok m)
    (h : Reads pc (readInstruction (some cp)) (op.code :: (beShort i.toNat ++ padding)) insn) :
    insn.member = some m := by
  have hlookup : ∀ o, Reads o (ClassFile.resolved (some cp) (·.member i)) [] (some m) :=
    fun o => (Reads.look hm).map some
  obtain rfl := h.value_eq (ClassFile.reads_readInstruction (reads_memberIndex hop hlookup pc pc))
  rfl

/-- The class at an index is the operand of the instruction that holds the index. -/
theorem class_of_reads {name : Bytes} (hop : op.operands = .classRef padding.length)
    (hname : cp.className i = .ok name)
    (h : Reads pc (readInstruction (some cp)) (op.code :: (beShort i.toNat ++ padding)) insn) :
    insn.classOperand = some name := by
  have hlookup : ∀ o, Reads o (ClassFile.resolved (some cp) (·.className i)) [] (some name) :=
    fun o => (Reads.look hname).map some
  obtain rfl := h.value_eq (ClassFile.reads_readInstruction (reads_classIndex hop hlookup pc pc))
  rfl

end

/-- What is always true of the instruction that is read back for a line: a class comes back as it
was written, and a member with its owner and with what its name and descriptor lead to. -/
structure Carries (asked : Bytes → Bytes → Prop) (P : PoolBuilder) (line : Bytes)
    (insn : Instruction) : Prop where
  /-- The opcode is that of the line. -/
  opcode : HasOpcode line insn
  /-- A class operand is carried as it was written. -/
  classOperand : insn.opcode.hasClassOperand = true →
    insn.classOperand = some (Descriptor.slashed (splitLine line).2)
  /-- A member operand is carried with its owner. -/
  member : insn.opcode.hasMemberOperand = true → ∃ r settled, RefersTo line r ∧
    asked r.name r.descriptor ∧ Settles asked P r.name r.descriptor settled ∧
      insn.member = some { r with name := settled.1, descriptor := settled.2 }

section

variable (hP : Requested asked P) (hsize : P.size ≤ 65534)
include hP hsize

/-- The bytes of a line are read back with what the line names. -/
theorem carries_of_reads {line b : Bytes} {pc : Nat} {insn : Instruction}
    (hasks : Asks asked line) (h : assembleLine line P = .ok (b, P)) (hop : HasOpcode line insn)
    (hreads : Reads pc (readInstruction (some P.finished)) b insn) :
    Carries asked P line insn := by
  refine ⟨hop, fun hclass => ?_, fun hmember => ?_⟩
  · have hname : RefersToClass line (Descriptor.slashed (splitLine line).2) :=
      ⟨insn.opcode, hop, hclass, rfl⟩
    obtain ⟨op, padding, i, rfl, hoperands, hi⟩ := hname.exists_index hP.sound h
    have hfound := Pool.className_eq_ok_iff.mpr (PoolBuilder.classAt_classRef hP.sound hsize hi)
    exact class_of_reads hoperands hfound hreads
  · obtain ⟨r, padding, i, tag, hr, rfl, hoperands, hi, hkind⟩ :=
      exists_member_index hop hmember hP.sound h
    obtain ⟨owner, howner⟩ := hr.exists_owner
    rw [howner] at hi
    obtain ⟨settled, hsettles, hfound⟩ := member_eq hP hsize hi
    refine ⟨r, settled, hr, hasks r hr, hsettles, ?_⟩
    rw [member_of_reads hoperands hfound hreads, howner, hkind]

/-- A list of lines is read back line by line with what the lines name. -/
theorem carries_of_assembleFrom {lines : List Bytes} {number pc : Nat} {code : Bytes}
    {pcs : List Nat} {insns : List Instruction} (hasks : ∀ line ∈ lines, Asks asked line)
    (h : assembleFrom number pc lines P = .ok ((code, pcs), P))
    (hdecodes : Decodes (some P.finished) pc code insns) :
    List.Forall₂ (Carries asked P) lines insns := by
  induction lines generalizing number pc code pcs insns with
  | nil =>
    cases h
    rw [ClassFile.decodes_nil_iff.mp hdecodes]
    exact .nil
  | cons line lines ih =>
    obtain ⟨b, q, code', pcs', hline, hrest, rfl, rfl⟩ := of_assembleFrom_cons h
    have hfirst := assemblesLine hP.sound hline
    -- the pool is finished, so the first line finds all of its constants there
    have hlater := (assembles hfirst.grown.sound hrest).grown.later
    have hagain := hfirst.again P hlater
    obtain rfl : P = q := by
      rw [hline] at hagain
      cases hagain
      rfl
    obtain ⟨insn, hinsn, -, hop⟩ := hfirst.reads (some P.finished) pc fun cp hcp =>
      Option.mem_some_iff.mp hcp ▸ PoolBuilder.resolves_finished hP.sound hsize
    obtain ⟨later, hdecodes', rfl⟩ := (ClassFile.decodes_append_iff hinsn).mp hdecodes
    have hcarries := carries_of_reads hP hsize (hasks line List.mem_cons_self) hline hop hinsn
    exact .cons hcarries (ih (fun l hl => hasks l (List.mem_cons_of_mem _ hl)) hrest hdecodes')

end

/-- Whether some line of a class names a member with this name and descriptor. -/
def AskedIn (c : Class) (name descriptor : Bytes) : Prop :=
  ∃ m ∈ c.methods, ∃ line ∈ m.code, ∃ r, RefersTo line r ∧ r.name = name ∧
    r.descriptor = descriptor

/-- Whether no two lines of a class divide the same text around a colon in different places. -/
def Unambiguous (c : Class) : Prop :=
  ∀ name descriptor name' descriptor', AskedIn c name descriptor → AskedIn c name' descriptor' →
    name ++ ":" ++ descriptor = name' ++ ":" ++ descriptor' → name = name'

/-- Whether an instruction carries exactly what its line names. -/
structure CarriesOwn (line : Bytes) (insn : Instruction) : Prop where
  /-- The opcode is that of the line. -/
  opcode : HasOpcode line insn
  /-- The class operand is the one on the line. -/
  classOperand : insn.opcode.hasClassOperand = true →
    insn.classOperand = some (Descriptor.slashed (splitLine line).2)
  /-- The member operand is the one on the line. -/
  member : insn.opcode.hasMemberOperand = true → ∃ r, RefersTo line r ∧ insn.member = some r

/-- Whether a relation holds of every line of a class and the instruction that is read back for
it. -/
def LineByLine (R : Bytes → Instruction → Prop) (c : Class) (k : ClassFile.Class) : Prop :=
  List.Forall₂ (fun m m' => List.Forall₂ R m.code m'.instructions) c.methods k.methods

/-- What holds of lines and instructions implies what is weaker. -/
theorem LineByLine.mono {R S : Bytes → Instruction → Prop} {c : Class} {k : ClassFile.Class}
    (h : LineByLine R c k) (hRS : ∀ line insn, R line insn → S line insn) : LineByLine S c k :=
  h.imp fun _ _ hm => hm.imp hRS

private theorem exists_of_forall₂ {α β : Type} {R S : α → β → Prop} {l : List α} {l' : List β}
    (h : List.Forall₂ R l l') (h' : List.Forall₂ S l l') {a : α} (ha : a ∈ l) :
    ∃ b, R a b ∧ S a b := by
  induction h with
  | nil => cases ha
  | cons hR _ ih =>
    obtain ⟨hS, hrest⟩ := List.forall₂_cons.mp h'
    rcases List.mem_cons.mp ha with rfl | ha
    · exact ⟨_, hR, hS⟩
    · exact ih hrest ha

/-- A line of a class has an instruction of which both of two relations hold. -/
theorem LineByLine.exists_both {R S : Bytes → Instruction → Prop} {c : Class}
    {k : ClassFile.Class} (h : LineByLine R c k) (h' : LineByLine S c k) {m : Method}
    (hm : m ∈ c.methods) {line : Bytes} (hline : line ∈ m.code) :
    ∃ insn, R line insn ∧ S line insn := by
  obtain ⟨m', hR, hS⟩ := exists_of_forall₂ h h' hm
  exact exists_of_forall₂ hR hS hline

/-- Where no text is divided in two ways, what a name and descriptor lead to is what was asked
for. -/
theorem Settles.eq {c : Class} (h : Unambiguous c) {name descriptor : Bytes}
    {settled : Bytes × Bytes} (hasked : AskedIn c name descriptor)
    (hs : Settles (AskedIn c) P name descriptor settled) : settled = (name, descriptor) := by
  obtain ⟨name', descriptor'⟩ := settled
  obtain rfl : name' = name := h _ _ _ _ hs.asked hasked hs.text
  have htext : name' ++ ":" ++ descriptor' = name' ++ ":" ++ descriptor := hs.text
  rw [List.append_cancel_left htext]

/-- What a text leads to does not depend on who asks. -/
theorem Settles.unique {name descriptor name' descriptor' : Bytes}
    {settled settled' : Bytes × Bytes}
    (h : Settles asked P name descriptor settled)
    (h' : Settles asked P name' descriptor' settled')
    (htext : name ++ ":" ++ descriptor = name' ++ ":" ++ descriptor') : settled = settled' := by
  obtain ⟨j, hj, hfound⟩ := h.found
  obtain ⟨j', hj', hfound'⟩ := h'.found
  rw [← htext] at hj'
  obtain rfl := hj.unique hj'
  rw [hfound] at hfound'
  exact Except.ok.inj hfound'

/-- Every instruction carries its own operand exactly when no text is divided in two ways. -/
theorem unambiguous_iff {c : Class} {k : ClassFile.Class}
    (h : LineByLine (Carries (AskedIn c) P) c k) :
    Unambiguous c ↔ LineByLine CarriesOwn c k := by
  constructor
  · intro hc
    refine h.mono fun line insn hcarries => ?_
    refine ⟨hcarries.opcode, hcarries.classOperand, fun hmember => ?_⟩
    obtain ⟨r, settled, hr, hasked, hsettles, hinsn⟩ := hcarries.member hmember
    rw [hsettles.eq hc hasked] at hinsn
    exact ⟨r, hr, hinsn⟩
  · intro hown
    -- a line that carries its own operand leads to what it asks for
    have hself : ∀ name descriptor, AskedIn c name descriptor →
        Settles (AskedIn c) P name descriptor (name, descriptor) := by
      rintro _ _ ⟨m, hm, line, hline, r, hr, rfl, rfl⟩
      obtain ⟨insn, hcarries, howned⟩ := h.exists_both hown hm hline
      have hmember : insn.opcode.hasMemberOperand = true := hr.hasMemberOperand hcarries.opcode
      obtain ⟨r₁, settled, hr₁, -, hsettles, hinsn⟩ := hcarries.member hmember
      obtain ⟨r₂, hr₂, hinsn'⟩ := howned.member hmember
      obtain rfl := hr.unique hr₁
      obtain rfl := hr.unique hr₂
      rw [hinsn, Option.some.injEq] at hinsn'
      have hsettled : settled = (r.name, r.descriptor) :=
        Prod.ext (congrArg MemberRef.name hinsn') (congrArg MemberRef.descriptor hinsn')
      exact hsettled ▸ hsettles
    intro name descriptor name' descriptor' hasked hasked' htext
    have heq := (hself _ _ hasked).unique (hself _ _ hasked') htext
    exact congrArg Prod.fst heq

/-- The symbolic operands of a class that is encoded and read back: classes and owners come back as
they were written, and names with their descriptors do so exactly when no two lines divide the same
text in different places. -/
theorem operands_of_parse_encode {c : Class} {data : Bytes} (h : encode c = .ok data)
    (hfits : Fits c) : ∃ k, ClassFile.parse data = .ok k ∧
      LineByLine (Carries (AskedIn c) (finishedPool c)) c k ∧
        (Unambiguous c ↔ LineByLine CarriesOwn c k) := by
  obtain ⟨body, hbody, rfl⟩ := of_encode h
  obtain ⟨hgrown, hmeans⟩ := emits_body hfits _ _ _ PoolBuilder.sound_empty hbody
  have hresolves := PoolBuilder.resolves_finished hgrown.sound hfits.poolSize
  obtain ⟨k, hclass, hreads⟩ := hmeans _ _ hresolves (.refl _)
  have hparse := ClassFile.run_eq_of_reads
    (reads_readClass hgrown.sound hfits.poolSize hfits.texts hreads)
  have hrequested : Requested (AskedIn c) (finishedPool c) :=
    keepsIf_body (fun m hm line hline r hr => ⟨m, hm, line, hline, r, hr, rfl, rfl⟩) _ _ _
      PoolBuilder.requested_empty hbody
  obtain ⟨-, hdecoded⟩ := ClassFile.gives_readDeclaration _ _ _ _ _ _ (hreads 0 [])
  have hcarries : LineByLine (Carries (AskedIn c) (finishedPool c)) c k := by
    refine (List.forall₂_iff_get.mpr ⟨hclass.methods.length_eq, fun i hi hi' => ?_⟩)
    have hm : c.methods.get ⟨i, hi⟩ ∈ c.methods := List.get_mem _ _
    have hm' : k.methods.get ⟨i, hi'⟩ ∈ k.methods := List.get_mem _ _
    have hmethod := hclass.methods.get hi hi'
    generalize c.methods.get ⟨i, hi⟩ = m at hm hmethod
    generalize k.methods.get ⟨i, hi'⟩ = m' at hm' hmethod
    by_cases hempty : m.code = []
    · rw [hempty, ClassFile.Method.instructions, hmethod.bodiless hempty]
      exact .nil
    · obtain ⟨code, hcode, hbodyOf⟩ := hmethod.body hempty
      obtain ⟨pcs, hassembled, -⟩ := hbodyOf.assembled
      rw [ClassFile.Method.instructions, hcode]
      exact carries_of_assembleFrom hrequested hfits.poolSize
        (fun line hline r hr => ⟨m, hm, line, hline, r, hr, rfl, rfl⟩) hassembled
        (ClassFile.decode_eq_ok_iff.mp (hdecoded m' hm' code hcode))
  exact ⟨k, hparse, hcarries, unambiguous_iff hcarries⟩

/-- A class in which a method and a field share their owner, and two methods their name and
descriptor. -/
def sharing : Class where
  name := "a.Sharing"
  methods := [
    { name := "run", descriptor := "()V",
      code := ["new a.Lock", "getfield a.Lock.held:Z", "invokevirtual a.Lock.close()V",
        "invokeinterface a.Gate.close()V", "return"] }]

/-- This class is read back line by line with its operands settled, and its own operands come back
exactly when no text is divided in two ways. -/
theorem operands_of_parse_encode_sharing : Fits sharing ∧ ∃ data k, encode sharing = .ok data ∧
    ClassFile.parse data = .ok k ∧
      LineByLine (Carries (AskedIn sharing) (finishedPool sharing)) sharing k ∧
        (Unambiguous sharing ↔ LineByLine CarriesOwn sharing k) := by
  have hsharing : (encode sharing).toOption.isSome = true ∧ Fits sharing := by decide +kernel
  obtain ⟨data, hdata⟩ := exists_encode hsharing.1
  obtain ⟨k, hk, hcarries, hiff⟩ := operands_of_parse_encode hdata hsharing.2
  exact ⟨hsharing.2, data, k, hdata, hk, hcarries, hiff⟩

/-- A class in which a field and a method make up the same text of a name and a descriptor. -/
def colliding : Class where
  name := "a.Colliding"
  methods := [
    { name := "run", descriptor := "()V",
      code := ["getfield a.Lock.held:by:(I)V", "invokestatic a.Lock.held:by(I)V"] }]

/-- The members that the instructions of a class carry. -/
def memberOperands (k : ClassFile.Class) : List (Option MemberRef) :=
  k.methods.flatMap fun m => m.instructions.map (·.member)

/-- The method that the second line names comes back under the name and the descriptor of the
field. -/
theorem method_takes_name_of_field : Fits colliding ∧
    RefersTo "invokestatic a.Lock.held:by(I)V" ⟨"a/Lock", "held:by", "(I)V", false⟩ ∧
      ((encode colliding).toOption.bind fun data => (ClassFile.parse data).toOption).map
        memberOperands = some [some ⟨"a/Lock", "held", "by:(I)V", false⟩,
          some ⟨"a/Lock", "held", "by:(I)V", false⟩] := by
  refine ⟨by decide +kernel, ?_, by decide +kernel⟩
  have hop : Opcode.ofMnemonic? (splitLine "invokestatic a.Lock.held:by(I)V").1 =
      some .invokestatic := by decide +kernel
  have hsplit : splitMethod (splitLine "invokestatic a.Lock.held:by(I)V").2 =
      .ok ("a.Lock", "held:by", "(I)V") := by decide +kernel
  exact .call hop rfl (splitMethod_eq_ok_iff.mp hsplit)

end ReturnAudit.Assembly
