import ReturnAudit.Proofs.ReturnCheck.Exactness

/-!
# Sessions are transparent

A client may ask a session for instances, facts, obligations, methods and visits, and may forget any
of its tables, in any order and as often as it likes. It may also come back with an instance that
was handed out before the table of instances was cleared. Whatever it has done, every answer is the
one that a new session gives: what is kept for a dead instance is never given out for another
reference.
-/

namespace ReturnAudit

open ClassFile (Method)

/-- A method that one of some classes declares. -/
structure Declaration (classes : List ClassFile.Class) where
  /-- The class. -/
  owner : ClassFile.Class
  /-- The method. -/
  method : Method
  /-- The class is one of the classes. -/
  owner_mem : owner ∈ classes
  /-- The class declares the method. -/
  method_mem : method ∈ owner.methods

/-- What a client can ask of a session over some classes. -/
inductive Operation (classes : List ClassFile.Class) where
  /-- The instance of a method reference. -/
  | method (ref : MethodRef)
  /-- The instance of a field reference. -/
  | field (ref : FieldRef)
  /-- The instance of the method that an instruction calls. -/
  | invoked (op : Opcode) (member : Option ClassFile.MemberRef)
  /-- The instance of a declared method. -/
  | declared (d : Declaration classes)
  /-- The opcodes in the body of a declared method. -/
  | opcodes (d : Declaration classes)
  /-- The narrowest range around a position of a declared method. -/
  | handler (d : Declaration classes) (pc : Int)
  /-- The obligation of a reference, of which the instance is asked for first. -/
  | obligation (ref : MethodRef)
  /-- The obligation of an instance that the client got earlier, counted from the first. -/
  | obligationOfHeld (index : Nat)
  /-- The declared methods of a class. -/
  | methods (c : { c // c ∈ classes })
  /-- The findings in a class. -/
  | visit (c : { c // c ∈ classes })
  /-- Forgets all instances. -/
  | clearSymbols
  /-- Forgets all facts. -/
  | clearFacts
  /-- Forgets all obligations. -/
  | clearObligations
  /-- Forgets everything but the classes. -/
  | close

/-- What a client is told; instances are told by their reference. -/
inductive Answer where
  | method (ref : MethodRef)
  | field (ref : FieldRef)
  | invoked (ref : Option MethodRef)
  | opcodes (set : OpcodeSet)
  | handler (range : Option ClassFile.ExceptionRange)
  | obligation (o : Obligation)
  | methods (list : List (Method × MethodRef))
  | visit (findings : List Finding) (bodies : Nat)
  | done

/-- A session together with the instances that its client got so far, the first one first. -/
structure Client where
  /-- The session. -/
  session : Session
  /-- The instances, some of which may be dead. -/
  held : List (Symbol MethodRef)

/-- The client of a new session. -/
def Client.start (classes : List ClassFile.Class) (options : ObligationOptions) : Client :=
  ⟨Session.start classes options, []⟩

namespace Operation

variable {classes : List ClassFile.Class}

/-- Carries out an operation. -/
def run (op : Operation classes) (s : Client) : Answer × Client :=
  match op with
  | method ref =>
    let (sym, session) := Session.interning (SymbolTable.method ref) s.session
    (.method sym.ref, ⟨session, s.held ++ [sym]⟩)
  | field ref =>
    let (sym, session) := Session.interning (SymbolTable.field ref) s.session
    (.field sym.ref, ⟨session, s.held⟩)
  | invoked op member =>
    let (call, session) := Session.interning (SymbolTable.invoked op member) s.session
    (.invoked (call.map Symbol.ref), ⟨session, s.held ++ call.toList⟩)
  | declared d =>
    let (sym, session) := Session.declared d.owner d.method s.session
    (.method sym.ref, ⟨session, s.held ++ [sym]⟩)
  | opcodes d =>
    let (facts, session) := Session.factsOf d.owner d.method s.session
    (.opcodes facts.opcodes, ⟨session, s.held⟩)
  | handler d pc =>
    let (facts, session) := Session.factsOf d.owner d.method s.session
    (.handler (facts.narrowestHandler pc), ⟨session, s.held⟩)
  | obligation ref =>
    let (sym, session) := Session.interning (SymbolTable.method ref) s.session
    let (o, session) := Session.obligation sym session
    (.obligation o, ⟨session, s.held ++ [sym]⟩)
  | obligationOfHeld index =>
    match s.held[index]? with
    | some sym =>
      let (o, session) := Session.obligation sym s.session
      (.obligation o, ⟨session, s.held⟩)
    | none => (.done, s)
  | methods c =>
    let (infos, session) := Session.methods c.val s.session
    (.methods (infos.map fun info => (info.method, info.symbol.ref)),
      ⟨session, s.held ++ infos.map MethodInfo.symbol⟩)
  | visit c =>
    let (outcome, session) := ReturnCheck.visit c.val s.session
    (.visit outcome.1 outcome.2, ⟨session, s.held⟩)
  | clearSymbols => (.done, ⟨s.session.clearSymbols, s.held⟩)
  | clearFacts => (.done, ⟨s.session.clearFacts, s.held⟩)
  | clearObligations => (.done, ⟨s.session.clearObligations, s.held⟩)
  | close => (.done, ⟨s.session.close, s.held⟩)

/-- The operation as a client asks for it who holds no instances yet: an instance is replaced by its
reference. -/
def afresh (held : List (Symbol MethodRef)) : Operation classes → Operation classes
  | obligationOfHeld index =>
    match held[index]? with
    | some sym => obligation sym.ref
    | none => obligationOfHeld index
  | op => op

/-- Carries out operations one after another. -/
def runAll (ops : List (Operation classes)) (s : Client) : Client :=
  ops.foldl (fun s op => (op.run s).2) s

/-- The answer to an operation by what is true. -/
def answer (truth : Truth) (held : List (Symbol MethodRef)) : Operation classes → Answer
  | method ref => .method ref
  | field ref => .field ref
  | invoked op member => .invoked (MethodRef.invoked? op member)
  | declared d => .method (.declared d.owner d.method)
  | opcodes d => .opcodes (truth.facts (.declared d.owner d.method)).opcodes
  | handler d pc => .handler ((truth.facts (.declared d.owner d.method)).narrowestHandler pc)
  | obligation ref => .obligation (truth.obligation ref)
  | obligationOfHeld index =>
    match held[index]? with
    | some sym => .obligation (truth.obligation sym.ref)
    | none => .done
  | methods c => .methods (c.val.methods.map fun m => (m, .declared c.val m))
  | visit c =>
    .visit (ReturnCheck.classOutcome truth c.val).1 (ReturnCheck.classOutcome truth c.val).2
  | _ => .done

/-- Asking for an instance that is held and asking for its reference have one true answer. -/
theorem answer_afresh (truth : Truth) (held : List (Symbol MethodRef)) (op : Operation classes) :
    (op.afresh held).answer truth [] = op.answer truth held := by
  cases op with
  | obligationOfHeld index =>
    simp only [afresh, answer]
    cases held[index]? <;> simp
  | _ => rfl

/-- The truth describes every declared method as it is. -/
def Describes (truth : Truth) (classes : List ClassFile.Class) : Prop :=
  ∀ c ∈ classes, ∀ m ∈ c.methods, truth.facts (.declared c m) = .ofMethod m

variable {truth : Truth}

/-- One operation answers with what is true. The instances that the client holds stay handed out,
also those that the operation kills. -/
theorem run_eq (h : Describes truth classes) (op : Operation classes) (t : Tracked truth)
    (held : List (Symbol MethodRef)) (hheld : ∀ sym ∈ held, t.Issued sym) :
    ∃ (u : Tracked truth) (held' : List (Symbol MethodRef)),
      op.run ⟨t.session, held⟩ = (op.answer truth held, ⟨u.session, held'⟩) ∧
        ∀ sym ∈ held', u.Issued sym := by
  -- what is held after a step that hands out `new`
  have happend : ∀ (u : Tracked truth) (new : List (Symbol MethodRef)), t.Later u →
      (∀ sym ∈ new, u.Issued sym) → ∀ sym ∈ held ++ new, u.Issued sym := by
    intro u new hl hnew sym hsym
    rcases List.mem_append.mp hsym with hsym | hsym
    · exact (hheld sym hsym).later hl
    · exact hnew sym hsym
  have hkeep : ∀ u : Tracked truth, t.Later u → ∀ sym ∈ held, u.Issued sym :=
    fun u hl sym hsym => (hheld sym hsym).later hl
  cases op with
  | method ref =>
    obtain ⟨u, sym, hu, hl, hi, href, _⟩ := t.intern_method ref
    refine ⟨u, held ++ [sym], ?_, happend u [sym] hl (by simpa using hi)⟩
    simp only [run, hu, answer, href]
  | field ref =>
    obtain ⟨u, sym, hu, hl, href⟩ := t.intern_field ref
    refine ⟨u, held, ?_, hkeep u hl⟩
    simp only [run, hu, answer, href]
  | invoked op member =>
    obtain ⟨u, call, hu, hl, hi, href⟩ := t.intern_invoked op member
    refine ⟨u, held ++ call.toList, ?_, happend u call.toList hl (by simpa using hi)⟩
    simp only [run, hu, answer, href]
  | declared d =>
    obtain ⟨u, sym, hu, hl, hi, href, _⟩ := t.intern_method (.declared d.owner d.method)
    refine ⟨u, held ++ [sym], ?_, happend u [sym] hl (by simpa using hi)⟩
    simp only [run, Session.declared, hu, answer, href]
  | opcodes d =>
    obtain ⟨u, hu, hl, _⟩ := t.factsOf_eq d.owner d.method
      (Or.inl (h d.owner d.owner_mem d.method d.method_mem))
    exact ⟨u, held, by simp only [run, hu, answer], hkeep u hl⟩
  | handler d pc =>
    obtain ⟨u, hu, hl, _⟩ := t.factsOf_eq d.owner d.method
      (Or.inl (h d.owner d.owner_mem d.method d.method_mem))
    exact ⟨u, held, by simp only [run, hu, answer], hkeep u hl⟩
  | obligation ref =>
    obtain ⟨u, sym, hu, hl, hi, href, _⟩ := t.intern_method ref
    obtain ⟨v, hv, hl'⟩ := u.obligation_eq hi
    refine ⟨v, held ++ [sym], ?_, happend v [sym] (hl.trans hl') (by simpa using hi.later hl')⟩
    simp only [run, hu, hv, answer, href]
  | obligationOfHeld index =>
    cases hget : held[index]? with
    | none => exact ⟨t, held, by simp only [run, hget, answer], hheld⟩
    | some sym =>
      obtain ⟨u, hu, hl⟩ := t.obligation_eq (hheld sym (List.mem_of_getElem? hget))
      exact ⟨u, held, by simp only [run, hget, hu, answer], hkeep u hl⟩
  | methods c =>
    obtain ⟨u, infos, hu, hl, hmethods, hinfos⟩ := t.methods_eq c.val
    refine ⟨u, held ++ infos.map MethodInfo.symbol, ?_, happend u _ hl ?_⟩
    · simp only [run, hu, answer, ← hmethods, List.map_map]
      refine congrArg₂ Prod.mk (congrArg Answer.methods ?_) rfl
      exact List.map_congr_left fun info hinfo => by simp [(hinfos info hinfo).1]
    · simpa using fun info hinfo => (hinfos info hinfo).2
  | visit c =>
    obtain ⟨u, hu, hl⟩ := ReturnCheck.visit_eq t (fun done m rest hsplit _ =>
      Or.inl (h c.val c.property m (by simp [hsplit])))
    exact ⟨u, held, by simp only [run, hu, answer], hkeep u hl⟩
  | clearSymbols =>
    -- the instances die, but their numbers stay handed out
    obtain ⟨u, hu, hi⟩ := t.clearSymbols_eq
    exact ⟨u, held, by simp only [run, hu, answer], fun sym hsym => hi sym (hheld sym hsym)⟩
  | clearFacts =>
    obtain ⟨u, hu, hi⟩ := t.clearFacts_eq
    exact ⟨u, held, by simp only [run, hu, answer], fun sym hsym => hi sym (hheld sym hsym)⟩
  | clearObligations =>
    obtain ⟨u, hu, hi⟩ := t.clearObligations_eq
    exact ⟨u, held, by simp only [run, hu, answer], fun sym hsym => hi sym (hheld sym hsym)⟩
  | close =>
    obtain ⟨u, hu, hi⟩ := t.clearObligations_eq
    obtain ⟨v, hv, hi'⟩ := u.clearFacts_eq
    obtain ⟨w, hw, hi''⟩ := v.clearSymbols_eq
    refine ⟨w, held, by simp only [run, Session.close, hu, hv, hw, answer], ?_⟩
    exact fun sym hsym => hi'' sym (hi' sym (hi sym (hheld sym hsym)))

/-- Any operations lead to a session that is still consistent. -/
theorem runAll_eq (h : Describes truth classes) (ops : List (Operation classes))
    (t : Tracked truth) (held : List (Symbol MethodRef)) (hheld : ∀ sym ∈ held, t.Issued sym) :
    ∃ (u : Tracked truth) (held' : List (Symbol MethodRef)),
      runAll ops ⟨t.session, held⟩ = ⟨u.session, held'⟩ ∧ ∀ sym ∈ held', u.Issued sym := by
  induction ops generalizing t held with
  | nil => exact ⟨t, held, rfl, hheld⟩
  | cons op ops ih =>
    obtain ⟨u, held', hu, hheld'⟩ := run_eq h op t held hheld
    obtain ⟨v, held'', hv, hheld''⟩ := ih u held' hheld'
    refine ⟨v, held'', ?_, hheld''⟩
    rw [runAll, List.foldl_cons, hu]
    exact hv

end Operation

/-- Classes with distinct names, none of which declares two methods of one name, descriptor and
staticness. -/
structure DistinctMembers (classes : List ClassFile.Class) : Prop where
  /-- No two classes have the same name. -/
  names : (classes.map (·.name)).Nodup
  /-- No class declares a method twice. -/
  methods : ∀ c ∈ classes, (c.methods.map fun m => (m.name, m.descriptor, m.isStatic)).Nodup

/-- All declared methods have distinct references. -/
theorem DistinctMembers.nodup_declared {classes : List ClassFile.Class}
    (h : DistinctMembers classes) :
    ((classes.flatMap fun c => c.methods.map fun m => (c, m)).map fun d =>
      MethodRef.declared d.1 d.2).Nodup := by
  simp only [List.map_flatMap, List.map_map]
  refine List.nodup_flatMap.mpr ⟨fun c hc => ReturnCheck.nodup_declared (h.methods c hc), ?_⟩
  refine (List.pairwise_map.mp h.names).imp ?_
  intro c c' hne ref hc hc'
  obtain ⟨m, _, rfl⟩ := List.mem_map.mp hc
  obtain ⟨m', _, hm'⟩ := List.mem_map.mp hc'
  exact hne (congrArg MethodRef.owner hm').symm

/-- After any operations on a session over classes with distinct members, in any order and with any
tables cleared in between, an operation has the same answer as on a new session. -/
theorem run_runAll_eq_run_start {classes : List ClassFile.Class}
    (hdistinct : DistinctMembers classes) (options : ObligationOptions)
    (before : List (Operation classes)) (op : Operation classes) :
    (op.run (Operation.runAll before (.start classes options))).1 =
      ((op.afresh (Operation.runAll before (.start classes options)).held).run
        (.start classes options)).1 := by
  let truth : Truth := {
    facts := fun ref => (((classes.flatMap fun c => c.methods.map fun m => (c, m)).find? fun d =>
      MethodRef.declared d.1 d.2 = ref).map fun d => .ofMethod d.2).getD ⟨.empty, []⟩
    obligation := Obligation.resolve (.ofClasses classes) options }
  have htruth : Operation.Describes truth classes := by
    intro c hc m hm
    have hmem : (c, m) ∈ classes.flatMap fun c => c.methods.map fun m => (c, m) :=
      List.mem_flatMap.mpr ⟨c, hc, List.mem_map.mpr ⟨m, hm, rfl⟩⟩
    simp only [truth, find?_key hdistinct.nodup_declared hmem, Option.map_some, Option.getD_some]
  obtain ⟨t, ht⟩ : ∃ t : Tracked truth, t.session = Session.start classes options :=
    Tracked.exists_start classes options rfl
  have hstart : Client.start classes options = ⟨t.session, []⟩ := by rw [Client.start, ht]
  obtain ⟨u, held, hu, hheld⟩ := Operation.runAll_eq htruth before t [] (by simp)
  obtain ⟨_, _, hop, _⟩ := Operation.run_eq htruth op u held hheld
  obtain ⟨_, _, hfresh, _⟩ := Operation.run_eq htruth (op.afresh held) t [] (by simp)
  rw [hstart, hu, hop, hfresh, Operation.answer_afresh]

/-- An instance that died is still answered for by its own reference, although another reference has
been handed out since. -/
theorem run_dead_instance :
    ((.obligationOfHeld 0 : Operation [ReturnCheck.trimDropped]).run
      (Operation.runAll [.obligation ⟨"java.lang.String", "trim", "()Ljava/lang/String;", false⟩,
        .clearSymbols, .obligation ⟨"a.B", "run", "()V", false⟩,
        .visit ⟨ReturnCheck.trimDropped, List.mem_singleton_self _⟩, .close]
        (.start [ReturnCheck.trimDropped] {}))).1 =
      .obligation (.inherited Obligation.low) := by
  rw [run_runAll_eq_run_start ⟨by decide, by decide⟩]
  rfl

end ReturnAudit
