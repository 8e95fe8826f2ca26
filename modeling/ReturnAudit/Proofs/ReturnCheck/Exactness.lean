import ReturnAudit.Proofs.ClassFile.OpcodeMembers
import ReturnAudit.Proofs.ReturnCheck.Findings
import Mathlib.Data.List.Find

/-!
# Exactness of the detector

The specification lists the findings of a class from its decoded instructions alone: one for each
call of a known method with a dropping instruction right after it, when the called method has to be
checked. A visit in a new session finds exactly these, in the order of the code. Neither the
prescreening by opcode sets nor the facts and obligations kept by instance lose or repeat one.
-/

namespace ReturnAudit.ReturnCheck

open ClassFile (Code ExceptionRange Instruction Method)

/-- The pairs of an instruction and the one right after it. -/
def consecutive (insns : List Instruction) : List (Instruction × Instruction) :=
  insns.zip insns.tail

/-- The four opcodes of calls that name a class. -/
def callOpcodes : List Opcode :=
  [.invokevirtual, .invokespecial, .invokestatic, .invokeinterface]

/-- The opcodes that drop a result. -/
def dropOpcodes : List Opcode :=
  [.pop, .pop2]

/-- The method that an instruction calls, when it is a call and its member belongs to a class. -/
def calledBy? (insn : Instruction) : Option MethodRef :=
  match insn.member with
  | some member =>
    if insn.opcode ∈ callOpcodes ∧ member.owner ≠ [] then
      some ⟨Descriptor.dotted member.owner, member.name, member.descriptor,
        insn.opcode = .invokestatic⟩
    else none
  | none => none

/-- The first of the narrowest ranges of a table that protect a position. -/
def firstNarrowest (table : List ExceptionRange) (pc : Int) : Option ExceptionRange :=
  let around := table.filter fun r => r.startPc ≤ pc ∧ pc < r.endPc
  around.find? fun r => ∀ other ∈ around, r.width ≤ other.width

/-- The finding for two consecutive instructions of a body: a call and the drop of its result, where
the called method has to be checked. -/
def ignoredResult? (resolve : MethodRef → Obligation) (c : ClassFile.Class) (m : Method)
    (code : Code) (call drop : Instruction) : Option Finding :=
  match calledBy? call with
  | some called =>
    if drop.opcode ∈ dropOpcodes ∧ (resolve called).kind = .check then
      some {
        pattern
        priority := score (resolve called) (firstNarrowest code.exceptionTable drop.pc) called
        className := c.name
        method := some ⟨c.name, m.name, m.descriptor, m.isStatic⟩
        pc := drop.pc
        line := code.lineAt call.pc
        called := some called
        note := noteMethodCalled }
    else none
  | none => none

/-- The findings in a method: none in a bridge or without a body, else one for each ignored result
in the order of the code. -/
def ignoredResults (resolve : MethodRef → Obligation) (c : ClassFile.Class) (m : Method) :
    List Finding :=
  match m.code with
  | some code =>
    if ClassFile.hasFlag m.access ClassFile.accBridge then []
    else (consecutive code.instructions).filterMap fun (call, drop) =>
      ignoredResult? resolve c m code call drop
  | none => []

/-- Whether a method is no bridge and its body has both a call and an instruction that drops a
result. -/
def hasCallAndDrop (m : Method) : Bool :=
  !ClassFile.hasFlag m.access ClassFile.accBridge &&
    m.instructions.any (fun insn => insn.opcode ∈ callOpcodes) &&
    m.instructions.any (fun insn => insn.opcode ∈ dropOpcodes)

/-- The opcodes after which a result may be dropped are those that call a method. -/
theorem mem_callOpcodes (op : Opcode) : op ∈ callOpcodes ↔ op.isInvoke = true := by
  simp [callOpcodes, Opcode.isInvoke, or_assoc]

/-- The opcodes that drop a result are those that discard one. -/
theorem mem_dropOpcodes (op : Opcode) : op ∈ dropOpcodes ↔ op.isDiscard = true := by
  simp [dropOpcodes, Opcode.isDiscard]

/-- The instances of a call and the calls of the specification are the same. -/
theorem calledBy?_eq (insn : Instruction) : calledBy? insn = (refStep insn).call := by
  cases hm : insn.member with
  | none => simp [calledBy?, refStep, hm, MethodRef.invoked?]
  | some member =>
    by_cases hop : insn.opcode.isInvoke = true <;> by_cases ho : member.owner = [] <;>
      simp [calledBy?, refStep, hm, MethodRef.invoked?, mem_callOpcodes, hop, ho]

/-- Whether a range is one of the narrowest of a list. -/
private def isNarrowest (ranges : List ExceptionRange) (r : ExceptionRange) : Bool :=
  ∀ other ∈ ranges, r.width ≤ other.width

private theorem isNarrowest_cons (r other : ExceptionRange) (ranges : List ExceptionRange) :
    isNarrowest (other :: ranges) r = (decide (r.width ≤ other.width) && isNarrowest ranges r) := by
  simp only [isNarrowest, List.forall_mem_cons, Bool.decide_and]

/-- Keeping the narrower of two candidates from left to right ends with the first narrowest. -/
private theorem foldl_narrower (best : ExceptionRange) (ranges : List ExceptionRange) :
    ranges.foldl ExceptionRange.narrower (some best) =
      (best :: ranges).find? (isNarrowest (best :: ranges)) := by
  induction ranges generalizing best with
  | nil => simp [isNarrowest]
  | cons r ranges ih =>
    rw [List.foldl_cons, ExceptionRange.narrower]
    by_cases hlt : r.width < best.width
    · -- the first candidate is out, and whatever is narrowest without it is narrower than it
      have hbest : ¬isNarrowest (best :: r :: ranges) best = true := by
        simp [isNarrowest_cons, hlt]
      rw [if_pos hlt, ih, List.find?_cons_of_neg hbest]
      refine List.find?_congr fun x _ => ?_
      simp only [isNarrowest_cons, ← Bool.and_assoc]
      congr 1
      rw [Bool.eq_iff_iff, Bool.and_eq_true, decide_eq_true_eq, decide_eq_true_eq]
      omega
    · -- the new range is no better, so it is not needed to tell the narrowest
      have hsame : ∀ x, isNarrowest (best :: r :: ranges) x = isNarrowest (best :: ranges) x := by
        intro x
        simp only [isNarrowest_cons, ← Bool.and_assoc]
        congr 1
        rw [Bool.eq_iff_iff, Bool.and_eq_true, decide_eq_true_eq, decide_eq_true_eq]
        omega
      rw [if_neg hlt, ih, funext hsame]
      by_cases hbest : isNarrowest (best :: ranges) best = true
      · rw [List.find?_cons_of_pos hbest, List.find?_cons_of_pos hbest]
      · have hr : ¬isNarrowest (best :: ranges) r = true := by
          intro hr
          refine hbest (decide_eq_true fun other hother => ?_)
          have hall := of_decide_eq_true hr other hother
          have hwidth := of_decide_eq_true hr best List.mem_cons_self
          omega
        rw [List.find?_cons_of_neg hbest, List.find?_cons_of_neg hbest, List.find?_cons_of_neg hr]

/-- The range that comes first among the narrowest is the one that the detector looks up. -/
theorem firstNarrowest_eq (table : List ExceptionRange) (pc : Int) :
    firstNarrowest table pc = ExceptionRange.narrowest table pc := by
  have hfilter : (table.filter fun r => decide (r.startPc ≤ pc ∧ pc < r.endPc)) =
      table.filter fun r => r.contains pc := by
    apply List.filter_congr
    intro r _
    simp [ExceptionRange.contains]
  rw [firstNarrowest, ExceptionRange.narrowest, hfilter]
  cases table.filter fun r => r.contains pc with
  | nil => rfl
  | cons best ranges => exact (foldl_narrower best ranges).symm

/-- The finding of two consecutive instructions is the one for what the automaton drops there. -/
theorem ignoredResult?_eq (truth : Truth) (c : ClassFile.Class) (m : Method) (code : Code)
    (hcode : m.code = some code)
    (hfacts : (truth.facts (.declared c m)).handlers = code.exceptionTable)
    (call drop : Instruction) :
    ignoredResult? truth.obligation c m code call drop =
      (adjacentDiscard (refStep call) (refStep drop)).bind (findingOf truth c m) := by
  rw [adjacentDiscard_eq]
  cases hcalled : (refStep call).call with
  | none => simp [ignoredResult?, calledBy?_eq, hcalled]
  | some called =>
    have hop : call.opcode.isInvoke = true := by
      by_contra hop
      simp [refStep, hop] at hcalled
    by_cases hdrop : drop.opcode.isDiscard = true
    · simp only [ignoredResult?, calledBy?_eq, hcalled, mem_dropOpcodes, hdrop, true_and,
        Option.isSome_some, Bool.and_true, refStep_opcode, refStep_pc, hop, ite_true,
        Option.bind_some, findingOf, Obligation.isCheck, decide_eq_true_eq, hcode,
        Option.map_some, Option.getD_some, firstNarrowest_eq, MethodFacts.narrowestHandler, hfacts]
      rfl
    · simp [ignoredResult?, calledBy?_eq, hcalled, mem_dropOpcodes, hdrop]

/-- The findings of a body are those for what the automaton drops in it. -/
theorem filterMap_ignoredResult? (truth : Truth) (c : ClassFile.Class) (m : Method) (code : Code)
    (hcode : m.code = some code)
    (hfacts : (truth.facts (.declared c m)).handlers = code.exceptionTable) :
    ((consecutive code.instructions).filterMap fun (call, drop) =>
        ignoredResult? truth.obligation c m code call drop) =
      (discards .scan (code.instructions.map refStep)).filterMap (findingOf truth c m) := by
  rw [discards_scan, ← List.map_tail, List.zip_map, List.filterMap_map, List.filterMap_filterMap,
    consecutive]
  apply List.filterMap_congr
  rintro ⟨call, drop⟩ _
  exact ignoredResult?_eq truth c m code hcode hfacts call drop

/-- A body without a call or without a drop has no consecutive pair of them. -/
theorem filterMap_ignoredResult?_eq_nil (resolve : MethodRef → Obligation) (c : ClassFile.Class)
    (m : Method) (code : Code)
    (h : ¬ ((∃ insn ∈ code.instructions, insn.opcode ∈ callOpcodes) ∧
      ∃ insn ∈ code.instructions, insn.opcode ∈ dropOpcodes)) :
    ((consecutive code.instructions).filterMap fun (call, drop) =>
      ignoredResult? resolve c m code call drop) = [] := by
  rw [List.filterMap_eq_nil_iff]
  rintro ⟨call, drop⟩ hmem
  have hcall : call ∈ code.instructions := (List.of_mem_zip hmem).1
  have hdrop : drop ∈ code.instructions := List.mem_of_mem_tail (List.of_mem_zip hmem).2
  rw [Option.eq_none_iff_forall_ne_some]
  intro f hf
  simp only [ignoredResult?] at hf
  split at hf
  · next called hcalled =>
    split at hf
    · next hcheck =>
      refine h ⟨⟨call, hcall, ?_⟩, ⟨drop, hdrop, hcheck.1⟩⟩
      simp only [calledBy?] at hcalled
      split at hcalled
      · split at hcalled
        · next hinvoke => exact hinvoke.1
        · cases hcalled
      · cases hcalled
    · cases hf
  · cases hf

/-- The facts about a method with a body. -/
theorem ofMethod_eq {m : Method} {code : Code} (hcode : m.code = some code)
    (hbody : m.hasBody = true) :
    MethodFacts.ofMethod m = ⟨.ofList (code.instructions.map (·.opcode)), code.exceptionTable⟩ := by
  have hne : code.instructions.isEmpty = false := by
    simpa [Method.hasBody, Method.instructions, hcode] using hbody
  simp only [MethodFacts.ofMethod, hcode, hne, Bool.false_eq_true, ite_false]

/-- Some opcode of a list belongs to a family. -/
theorem meets_opcodes (insns : List Instruction) (family : List Opcode) :
    (OpcodeSet.ofList (insns.map (·.opcode))).meets (.ofList family) =
      insns.any (fun insn => insn.opcode ∈ family) := by
  rw [Bool.eq_iff_iff, OpcodeSet.ofList_meets_ofList, List.any_eq_true]
  simp

/-- The prescreening lets a body pass exactly when it has both a call and a drop. -/
theorem scannable_eq {m : Method} {code : Code} (hcode : m.code = some code)
    (hbody : m.hasBody = true) :
    scannable m (MethodFacts.ofMethod m).opcodes (some [.discards, .invokes]) =
      if m.instructions.any (fun insn => insn.opcode ∈ callOpcodes) &&
          m.instructions.any (fun insn => insn.opcode ∈ dropOpcodes) then some code.instructions
      else none := by
  have hinsns : m.instructions = code.instructions := by simp only [Method.instructions, hcode]
  obtain ⟨first, rest, hcons⟩ : ∃ first rest, code.instructions = first :: rest :=
    List.exists_cons_of_ne_nil (by simpa [Method.hasBody, hinsns] using hbody)
  have hops : (OpcodeSet.ofList (code.instructions.map (·.opcode))).isEmpty = false := by
    rw [Bool.eq_false_iff, ne_eq, OpcodeSet.isEmpty_iff]
    intro hall
    have hfirst := (OpcodeSet.has_ofList (code.instructions.map (·.opcode)) first.opcode).mpr
      (by simp [hcons])
    rw [hall] at hfirst
    cases hfirst
  have hdrops : (OpcodeSet.ofList (code.instructions.map (·.opcode))).meets .discards =
      m.instructions.any (fun insn => insn.opcode ∈ dropOpcodes) := by
    rw [hinsns]
    exact meets_opcodes code.instructions dropOpcodes
  have hcalls : (OpcodeSet.ofList (code.instructions.map (·.opcode))).meets .invokes =
      m.instructions.any (fun insn => insn.opcode ∈ callOpcodes) := by
    rw [hinsns, OpcodeSet.invokes, meets_opcodes]
    congr 1
    funext insn
    simp only [callOpcodes, List.mem_cons, List.not_mem_nil, or_false, decide_eq_decide]
    tauto
  simp only [scannable, ofMethod_eq hcode hbody, hbody, hops, OpcodeSet.meetsAll, List.all_cons,
    List.all_nil, hdrops, hcalls, hinsns, Bool.not_true, Bool.or_false, Bool.false_eq_true,
    ite_false, Bool.and_true]
  rw [Bool.and_comm]

/-- The outcome of a method that decides the facts about itself is what the specification lists. -/
theorem methodOutcome_eq (truth : Truth) (c : ClassFile.Class) (m : Method)
    (hfacts : truth.facts (.declared c m) = .ofMethod m) :
    methodOutcome truth c m = (ignoredResults truth.obligation c m, hasCallAndDrop m) := by
  cases hcode : m.code with
  | none => simp [methodOutcome, isScanned, Method.hasBody, Method.instructions, hcode,
      ignoredResults, hasCallAndDrop]
  | some code =>
    by_cases hbridge : ClassFile.hasFlag m.access ClassFile.accBridge = true
    · simp [methodOutcome, isScanned, hbridge, ignoredResults, hcode, hasCallAndDrop]
    · have hinsns : m.instructions = code.instructions := by
        simp only [Method.instructions, hcode]
      by_cases hbody : m.hasBody = true
      · have hhandlers : (truth.facts (.declared c m)).handlers = code.exceptionTable := by
          rw [hfacts, ofMethod_eq hcode hbody]
        simp only [methodOutcome, isScanned, hbody, hbridge, Bool.not_false, Bool.and_self,
          ite_true, hfacts, scannable_eq hcode hbody, ignoredResults, hcode, hasCallAndDrop,
          Bool.true_and, Bool.false_eq_true, ite_false]
        by_cases hpass : (m.instructions.any (fun insn => insn.opcode ∈ callOpcodes) &&
            m.instructions.any (fun insn => insn.opcode ∈ dropOpcodes)) = true
        · simp only [hpass, ite_true]
          rw [filterMap_ignoredResult? truth c m code hcode hhandlers]
        · have hnone := filterMap_ignoredResult?_eq_nil truth.obligation c m code (by
            simpa [hinsns] using hpass)
          simp only [hpass, Bool.false_eq_true, ite_false, hnone]
      · have hnil : code.instructions = [] := by
          simpa [Method.hasBody, hinsns] using hbody
        simp [methodOutcome, isScanned, hbody, ignoredResults, hcode, hbridge, hnil, consecutive,
          hasCallAndDrop, hinsns]

/-- A visit of a class in a new session over any classes reports one finding for each ignored
result in a body, in the order of the methods and then of the code, and nothing else. It counts the
bodies that have both a call and a drop. -/
theorem visit_start_eq (classes : List ClassFile.Class) (options : ObligationOptions)
    (c : ClassFile.Class)
    (hdistinct : (c.methods.map fun m => (m.name, m.descriptor, m.isStatic)).Nodup) :
    (visit c (Session.start classes options)).1 =
      (c.methods.flatMap (ignoredResults (Obligation.resolve (.ofClasses classes) options) c),
        c.methods.countP hasCallAndDrop) := by
  let truth : Truth := {
    facts := fun ref =>
      ((c.methods.find? fun m => MethodRef.declared c m = ref).map .ofMethod).getD ⟨.empty, []⟩
    obligation := Obligation.resolve (.ofClasses classes) options }
  have hfacts : ∀ m ∈ c.methods, truth.facts (.declared c m) = .ofMethod m := by
    intro m hm
    simp only [truth, find?_key (nodup_declared hdistinct) hm, Option.map_some, Option.getD_some]
  have hsettles : Settles truth c := by
    intro done m rest hsplit _
    exact Or.inl (hfacts m (by simp [hsplit]))
  obtain ⟨t, ht⟩ : ∃ t : Tracked truth, t.session = Session.start classes options :=
    Tracked.exists_start classes options rfl
  obtain ⟨u, hu, _⟩ := visit_eq t hsettles
  rw [← ht, hu]
  refine Prod.ext ?_ ?_
  · exact List.flatMap_congr fun m hm => by rw [methodOutcome_eq truth c m (hfacts m hm)]
  · exact List.countP_congr fun m hm => by rw [methodOutcome_eq truth c m (hfacts m hm)]

/-- A class with one method, which calls `trim` in a protected range of one byte and drops the
result. -/
def trimDropped : ClassFile.Class :=
  { major := 52, minor := 0, access := ClassFile.accPublic, name := "a.B",
    super := "java.lang.Object", interfaces := [], fields := [], annotations := [],
    sourceFile := [], pool := ⟨#[]⟩,
    methods := [{
      access := ClassFile.accPublic, name := "run", descriptor := "()V", annotations := [],
      code := some {
        maxStack := 1, maxLocals := 1, bytes := [0xb6, 0, 1, 0x57],
        instructions := [
          ⟨0, .invokevirtual, 3, 1,
            some ⟨"java/lang/String", "trim", "()Ljava/lang/String;", false⟩, none⟩,
          ⟨3, .pop, 1, 0, none, none⟩],
        exceptionTable := [⟨0, 4, 9, []⟩, ⟨3, 4, 9, []⟩], lines := #[⟨0, 7⟩] } }] }

/-- A dropped `trim` gives one finding, with the call and the line, in the one body that is read. -/
theorem visit_start_trimDropped :
    (visit trimDropped (Session.start [trimDropped] {})).1 =
      ([{ pattern, priority := 3, className := "a.B", method := some ⟨"a.B", "run", "()V", false⟩,
          pc := 3, line := 7,
          called := some ⟨"java.lang.String", "trim", "()Ljava/lang/String;", false⟩,
          note := noteMethodCalled }], 1) := by
  rw [visit_start_eq [trimDropped] {} trimDropped (by decide)]
  decide +kernel

end ReturnAudit.ReturnCheck
