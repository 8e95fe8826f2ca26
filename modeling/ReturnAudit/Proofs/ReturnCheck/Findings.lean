import ReturnAudit.Proofs.Keyed
import ReturnAudit.Proofs.ReturnCheck.Adjacency
import ReturnAudit.Proofs.Session.Tracking

/-!
# What a visit finds

A visit asks the session for instances, facts and obligations. Since the session answers with what
is true, the findings of a class are a function of the class and of that truth, and the session is
left consistent. A class may declare a reference twice; then the first scanned method decides the
facts for both, and a visit still has only one outcome.
-/

namespace ReturnAudit.ReturnCheck

open ClassFile (Instruction Method)

/-- Whether detectors look at the body of a method. -/
def isScanned (m : Method) : Bool :=
  m.hasBody && !ClassFile.hasFlag m.access ClassFile.accBridge

/-- What is known of a method tells whether its body is scanned. -/
theorem shouldScan_eq (info : MethodInfo) : info.shouldScan = isScanned info.method := rfl

/-- What the automaton reads for an instruction when references stand for their instances. -/
def refStep (insn : Instruction) : Step MethodRef :=
  ⟨insn.opcode, insn.pc,
    if insn.opcode.isInvoke then MethodRef.invoked? insn.opcode insn.member else none⟩

@[simp] theorem refStep_opcode (insn : Instruction) : (refStep insn).opcode = insn.opcode := rfl

@[simp] theorem refStep_pc (insn : Instruction) : (refStep insn).pc = insn.pc := rfl

/-- The finding for an ignored result, when the called method has to be checked. -/
def findingOf (truth : Truth) (c : ClassFile.Class) (m : Method) (d : Discard MethodRef) :
    Option Finding :=
  d.call.bind fun call =>
    if (truth.obligation call).isCheck then
      some {
        pattern
        priority := score (truth.obligation call)
          ((truth.facts (.declared c m)).narrowestHandler d.pc) call
        className := c.name
        method := some (.declared c m)
        pc := d.pc
        line := (m.code.map fun code => code.lineAt d.callPc).getD 0
        called := some call
        note := noteMethodCalled }
    else none

/-- The findings in a method, and whether its body is read. -/
def methodOutcome (truth : Truth) (c : ClassFile.Class) (m : Method) : List Finding × Bool :=
  if isScanned m then
    match scannable m (truth.facts (.declared c m)).opcodes (some [.discards, .invokes]) with
    | none => ([], false)
    | some insns => ((discards .scan (insns.map refStep)).filterMap (findingOf truth c m), true)
  else ([], false)

/-- The findings in a class in the order of the code, and how many bodies are read. -/
def classOutcome (truth : Truth) (c : ClassFile.Class) : List Finding × Nat :=
  (c.methods.flatMap fun m => (methodOutcome truth c m).1,
    c.methods.countP fun m => (methodOutcome truth c m).2)

variable {truth : Truth}

/-- Reading an instruction asks for the instance of the method that it calls. -/
theorem stepOf_eq (t : Tracked truth) (insn : Instruction) :
    ∃ (u : Tracked truth) (step : Step (Symbol MethodRef)),
      stepOf insn t.session = (step, u.session) ∧ t.Later u ∧
        step.map Symbol.ref = refStep insn ∧ ∀ sym ∈ step.call, u.Issued sym := by
  by_cases hop : insn.opcode.isInvoke = true
  · obtain ⟨u, call, hu, hl, hi, href⟩ := t.intern_invoked insn.opcode insn.member
    refine ⟨u, ⟨insn.opcode, insn.pc, call⟩, ?_, hl, ?_, hi⟩
    · simp only [stepOf, hop, ite_true]
      exact run_bind hu
    · simp only [Step.map, refStep, href, hop, ite_true]
  · refine ⟨t, ⟨insn.opcode, insn.pc, none⟩, ?_, .refl t, ?_, by simp⟩
    · simp only [stepOf, hop]
      rfl
    · simp only [Step.map, refStep, hop, Option.map_none, Bool.false_eq_true, ite_false]

/-- An ignored result is reported by its reference, once the facts about the method are kept. -/
theorem report_eq (t : Tracked truth) (c : ClassFile.Class) {info : MethodInfo}
    (href : info.symbol.ref = .declared c info.method)
    (hk : t.session.Knows (.declared c info.method)) {d : Discard (Symbol MethodRef)}
    (hd : ∀ sym ∈ d.call, t.Issued sym) :
    ∃ u : Tracked truth,
      report c info d t.session = (findingOf truth c info.method (d.map Symbol.ref), u.session) ∧
        t.Later u := by
  cases hcall : d.call with
  | none =>
    refine ⟨t, ?_, .refl t⟩
    simp only [report, hcall, findingOf, Discard.map]
    rfl
  | some call =>
    obtain ⟨u, hu, hl⟩ := t.obligation_eq (hd call hcall)
    simp only [report, hcall, findingOf, Discard.map, Option.map_some, Option.bind_some]
    rw [run_bind hu]
    by_cases ho : (truth.obligation call.ref).isCheck = true
    · obtain ⟨v, hv, hl', _⟩ := u.factsOf_eq c info.method (Or.inr (hl.knows _ hk))
      refine ⟨v, ?_, hl.trans hl'⟩
      simp only [ho, Bool.not_true, Bool.false_eq_true, ite_false, ite_true]
      rw [run_bind hv, href]
      cases info.method.code <;> rfl
    · refine ⟨u, ?_, hl⟩
      simp only [ho, Bool.not_false, ite_true]
      rfl

/-- For a dropped result the finding is reported that is true of it, and the session stays
consistent. -/
theorem reportDropped_eq (t : Tracked truth) (c : ClassFile.Class) {info : MethodInfo}
    (href : info.symbol.ref = .declared c info.method)
    (hk : t.session.Knows (.declared c info.method)) {dropped : Option (Discard (Symbol MethodRef))}
    (hd : ∀ d ∈ dropped, ∀ sym ∈ d.call, t.Issued sym) :
    ∃ u : Tracked truth,
      reportDropped c info dropped t.session =
        (dropped.bind fun d => findingOf truth c info.method (d.map Symbol.ref), u.session) ∧
        t.Later u := by
  cases dropped with
  | none => exact ⟨t, rfl, .refl t⟩
  | some d => exact report_eq t c href hk (hd d rfl)

/-- What is remembered of an instruction was handed out. -/
private theorem issued_after {t : Tracked truth} {step : Step (Symbol MethodRef)}
    (h : ∀ sym ∈ step.call, t.Issued sym) {call : Option (Symbol MethodRef)} {pc : Int}
    (hs : State.after step = .sawInvoke call pc) : ∀ sym ∈ call, t.Issued sym := by
  unfold State.after at hs
  split at hs
  · cases hs
    exact h
  · cases hs

/-- Reading the rest of a body from a state on finds what the automaton drops. -/
theorem scanFrom_eq (c : ClassFile.Class) {info : MethodInfo}
    (href : info.symbol.ref = .declared c info.method) (insns : List Instruction)
    (s : State (Symbol MethodRef)) (t : Tracked truth)
    (hk : t.session.Knows (.declared c info.method))
    (hs : ∀ call pc, s = .sawInvoke call pc → ∀ sym ∈ call, t.Issued sym) :
    ∃ u : Tracked truth,
      scanFrom c info s insns t.session =
        ((discards (s.map Symbol.ref) (insns.map refStep)).filterMap
          (findingOf truth c info.method), u.session) ∧ t.Later u := by
  induction insns generalizing s t with
  | nil => exact ⟨t, rfl, .refl t⟩
  | cons insn insns ih =>
    obtain ⟨u, step, hu, htu, hstep, hissued⟩ := stepOf_eq t insn
    have hdropped : ∀ d ∈ s.dropped step, ∀ sym ∈ d.call, u.Issued sym := by
      intro d hd sym hsym
      cases s with
      | scan => cases hd
      | sawInvoke call pc =>
        simp only [State.dropped, Option.mem_def] at hd
        split at hd <;> cases hd
        exact (hs call pc rfl sym hsym).later htu
    obtain ⟨v, hv, huv⟩ := reportDropped_eq u c href (htu.knows _ hk) hdropped
    obtain ⟨w, hw, hvw⟩ := ih (State.after step) v (huv.knows _ (htu.knows _ hk))
      (fun call pc hafter sym hsym => (issued_after hissued hafter sym hsym).later huv)
    refine ⟨w, ?_, htu.trans (huv.trans hvw)⟩
    simp only [scanFrom]
    rw [run_bind hu]
    simp only [transition_eq]
    rw [run_bind hv, run_bind hw]
    simp only [List.map_cons, discards, trace, transition_eq, ← hstep, State.after_map,
      State.dropped_map]
    cases s.dropped step with
    | none => rfl
    | some d =>
      simp only [Option.bind_some, Option.map_some, List.filterMap_cons]
      cases findingOf truth c info.method (d.map Symbol.ref) <;> rfl

/-- Visiting a method, when the facts about it are true or already kept. -/
theorem visitMethod_eq (t : Tracked truth) (c : ClassFile.Class) {info : MethodInfo}
    (href : info.symbol.ref = .declared c info.method)
    (h : isScanned info.method = true →
      truth.facts (.declared c info.method) = .ofMethod info.method ∨
        t.session.Knows (.declared c info.method)) :
    ∃ u : Tracked truth,
      visitMethod c info t.session = (methodOutcome truth c info.method, u.session) ∧ t.Later u ∧
        (isScanned info.method = true → u.session.Knows (.declared c info.method)) := by
  by_cases hscan : isScanned info.method = true
  · obtain ⟨u, hu, htu, hknows⟩ := t.factsOf_eq c info.method (h hscan)
    simp only [visitMethod, shouldScan_eq, hscan, Bool.not_true, Bool.false_eq_true, ite_false,
      methodOutcome, ite_true]
    rw [run_bind hu]
    cases scannable info.method (truth.facts (.declared c info.method)).opcodes
      (some [.discards, .invokes]) with
    | none => exact ⟨u, rfl, htu, fun _ => hknows⟩
    | some insns =>
      obtain ⟨v, hv, huv⟩ := scanFrom_eq c href insns .scan u hknows (by simp)
      exact ⟨v, run_bind hv, htu.trans huv, fun _ => huv.knows _ hknows⟩
  · refine ⟨t, ?_, .refl t, fun hs => absurd hs hscan⟩
    simp only [visitMethod, shouldScan_eq, hscan, methodOutcome]
    rfl

/-- The truth about the scanned methods of a class: each is described as it is, or an earlier one
with the same reference is scanned too. -/
def Settles (truth : Truth) (c : ClassFile.Class) : Prop :=
  ∀ done m rest, c.methods = done ++ m :: rest → isScanned m = true →
    truth.facts (.declared c m) = .ofMethod m ∨
      ∃ m' ∈ done, isScanned m' = true ∧ MethodRef.declared c m' = .declared c m

/-- Methods that differ in name, descriptor or staticness have distinct references. -/
theorem nodup_declared {c : ClassFile.Class}
    (h : (c.methods.map fun m => (m.name, m.descriptor, m.isStatic)).Nodup) :
    (c.methods.map (MethodRef.declared c)).Nodup := by
  refine List.Nodup.of_map (fun ref : MethodRef => (ref.name, ref.signature, ref.isStatic)) ?_
  rw [List.map_map]
  exact h

/-- A visit has the outcome of the class when each scanned method is described as it is, or an
earlier one with the same reference is scanned too, in this class or in one visited before. The
facts about the scanned methods are then kept. -/
theorem visit_leaves (t : Tracked truth) {c : ClassFile.Class}
    (h : ∀ done m rest, c.methods = done ++ m :: rest → isScanned m = true →
      truth.facts (.declared c m) = .ofMethod m ∨
        (∃ m' ∈ done, isScanned m' = true ∧ MethodRef.declared c m' = .declared c m) ∨
          t.session.Knows (.declared c m)) :
    ∃ u : Tracked truth, visit c t.session = (classOutcome truth c, u.session) ∧ t.Later u ∧
      ∀ m ∈ c.methods, isScanned m = true → u.session.Knows (.declared c m) := by
  obtain ⟨u, infos, hu, htu, hmethods, hinfos⟩ := t.methods_eq c
  have hvisits : ∃ v : Tracked truth, infos.mapM (visitMethod c) u.session =
      (infos.map fun info => methodOutcome truth c info.method, v.session) ∧ u.Later v ∧
        ∀ info ∈ infos, isScanned info.method = true →
          v.session.Knows (.declared c info.method) := by
    refine Tracked.mapM_leaves _ (fun info v =>
      isScanned info.method = true → v.session.Knows (.declared c info.method)) ?_ infos u ?_
    · intro info v w hl hk hs
      exact hl.knows _ (hk hs)
    intro done info rest hsplit v huv hdone
    refine visitMethod_eq v c (hinfos info (by simp [hsplit])).1 ?_
    intro hs
    have hc : c.methods =
        done.map MethodInfo.method ++ info.method :: rest.map MethodInfo.method := by
      rw [← hmethods, hsplit, List.map_append, List.map_cons]
    refine (h _ _ _ hc hs).imp_right ?_
    rintro (⟨m', hm', hs', heq⟩ | hknows)
    · obtain ⟨info', hinfo', rfl⟩ := List.mem_map.mp hm'
      exact heq ▸ hdone info' hinfo' hs'
    · exact (htu.trans huv).knows _ hknows
  obtain ⟨v, hv, huv, hknows⟩ := hvisits
  refine ⟨v, ?_, htu.trans huv, ?_⟩
  · rw [visit, run_bind hu, run_bind hv]
    simp only [classOutcome, ← hmethods, List.flatMap_map, List.countP_map]
    rfl
  · rw [← hmethods]
    intro m hm hs
    obtain ⟨info, hinfo, rfl⟩ := List.mem_map.mp hm
    exact hknows info hinfo hs

/-- A visit has the outcome of a settled class, whatever the session has kept before. -/
theorem visit_eq (t : Tracked truth) {c : ClassFile.Class} (h : Settles truth c) :
    ∃ u : Tracked truth, visit c t.session = (classOutcome truth c, u.session) ∧ t.Later u := by
  obtain ⟨u, hu, htu, -⟩ := visit_leaves t fun done m rest hsplit hs =>
    (h done m rest hsplit hs).imp_right Or.inl
  exact ⟨u, hu, htu⟩

end ReturnAudit.ReturnCheck
