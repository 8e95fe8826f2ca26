import ReturnAudit.Proofs.Obligation.Declarations
import ReturnAudit.Proofs.Session.Transparency

/-!
# Priorities of obligations and findings

A session keeps obligations whose priority is one of their kind: what it resolves is so, and nothing
else is ever kept. The priority of a finding adds at most three to that of an obligation that has to
be met, so it stays within a small range whatever a client has done before.
-/

namespace ReturnAudit

/-- Whether every obligation kept has the priority of its kind. -/
def Session.Ranked (s : Session) : Prop :=
  ∀ e ∈ s.obligations, e.2.Ranked

/-- Whether the priority of a finding is one from one to six. -/
def Finding.Ranked (f : Finding) : Prop :=
  1 ≤ f.priority ∧ f.priority ≤ 6

/-- A step that, on a session with ranked obligations, has an outcome of which `P` holds and keeps
the obligations ranked. -/
def Yields {α : Type} (P : α → Prop) (x : StateM Session α) : Prop :=
  ∀ s : Session, s.Ranked → P (x s).1 ∧ (x s).2.Ranked

namespace Yields

variable {α β : Type} {P : α → Prop} {Q : β → Prop}

/-- A step that does nothing yields its value. -/
theorem pure {a : α} (h : P a) : Yields P (Pure.pure a) :=
  fun _ hs => ⟨h, hs⟩

/-- Steps that yield something yield it one after another. -/
theorem bind {x : StateM Session α} {f : α → StateM Session β} (hx : Yields P x)
    (hf : ∀ a, P a → Yields Q (f a)) : Yields Q (x >>= f) := by
  intro s hs
  obtain ⟨ha, ht⟩ := hx s hs
  exact hf _ ha _ ht

/-- A step for each element of a list yields what each of them does. -/
theorem mapM {f : β → StateM Session α} (hf : ∀ b, Yields P (f b)) (l : List β) :
    Yields (fun as => ∀ a ∈ as, P a) (l.mapM f) := by
  induction l with
  | nil => exact .pure (by simp)
  | cons b l ih =>
    rw [List.mapM_cons]
    refine .bind (hf b) fun a ha => .bind ih fun as has => .pure ?_
    exact List.forall_mem_cons.mpr ⟨ha, has⟩

/-- The table of instances has no part in obligations. -/
theorem interning (step : StateM SymbolTable α) :
    Yields (fun _ => True) (Session.interning step) :=
  fun _ hs => ⟨trivial, hs⟩

/-- Asking for the facts under an instance keeps the obligations ranked. -/
theorem factsUnder (symbol : Symbol MethodRef) (m : ClassFile.Method) :
    Yields (fun _ => True) (Session.factsUnder symbol m) := by
  intro s hs
  refine ⟨trivial, ?_⟩
  unfold Session.factsUnder
  cases s.facts.lookup symbol.instanceId <;> exact hs

/-- Asking for the facts about a method keeps the obligations ranked. -/
theorem factsOf (c : ClassFile.Class) (m : ClassFile.Method) :
    Yields (fun _ => True) (Session.factsOf c m) :=
  .bind (interning _) fun symbol _ => factsUnder symbol m

/-- Asking for the methods of a class keeps the obligations ranked. -/
theorem methods (c : ClassFile.Class) : Yields (fun _ => True) (Session.methods c) := by
  intro s hs
  refine ⟨trivial, (mapM (P := fun _ => True) (fun m => ?_) c.methods s hs).2⟩
  exact .bind (interning _) fun _ _ => .pure trivial

/-- What is kept for an instance is ranked, and so is what is resolved for it. -/
theorem obligation (call : Symbol MethodRef) :
    Yields Obligation.Ranked (Session.obligation call) := by
  intro s hs
  unfold Session.obligation
  cases hlook : s.obligations.lookup call.instanceId with
  | some o => exact ⟨hs _ (mem_of_lookup hlook), hs⟩
  | none =>
    have ho := ranked_resolve s.hierarchy s.options call.ref
    exact ⟨ho, List.forall_mem_cons.mpr ⟨ho, hs⟩⟩

end Yields

namespace ReturnCheck

/-- What a protected range adds to a priority. -/
def guardOf : Option ClassFile.ExceptionRange → Int
  | some r => if r.width ≤ 1 then 2 else if r.width ≤ 2 then 1 else 0
  | none => 0

/-- A protected range adds two to a priority at most. -/
theorem guardOf_bounds (range : Option ClassFile.ExceptionRange) :
    0 ≤ guardOf range ∧ guardOf range ≤ 2 := by
  unfold guardOf
  (repeat' split) <;> decide

/-- The priority of a breach adds what the range adds to what the obligation and the call are worth,
and does not wrap around. -/
theorem exists_score_eq {o : Obligation} (h : o.Ranked) (hcheck : o.isCheck = true)
    (call : MethodRef) :
    ∃ base, 1 ≤ base ∧ base ≤ 4 ∧ ∀ range, score o range call = base + guardOf range := by
  have hkind : o.kind = .check := of_decide_eq_true hcheck
  have hpriority : 1 ≤ o.priority ∧ o.priority ≤ 3 := by
    rcases h with ⟨-, hmem⟩ | ⟨hother, -⟩
    · simp only [List.mem_cons, List.not_mem_nil, or_false] at hmem
      omega
    · rw [hkind] at hother
      rcases hother with hother | hother <;> cases hother
  have hwrap : ∀ x : Int, 1 ≤ x → x ≤ 6 → x.bmod (1 <<< 64) = x := by
    intro x hx hx'
    rw [Int.bmod_eq_of_le_mul_two] <;> simp <;> omega
  let distance : Int := if !o.direct && !call.returnsOwner then 1 else 0
  have hdistance : 0 ≤ distance ∧ distance ≤ 1 := by
    simp only [distance]
    split <;> decide
  refine ⟨o.priority + distance, by omega, by omega, fun range => ?_⟩
  have hguard := guardOf_bounds range
  have hscore : score o range call = (o.priority + guardOf range + distance).bmod (1 <<< 64) := rfl
  rw [hscore, hwrap _ (by omega) (by omega)]
  omega

/-- A breach of an obligation that has to be met is at least as severe as the least obligation and
at most three more severe than the highest. -/
theorem score_ranked {o : Obligation} (h : o.Ranked) (hcheck : o.isCheck = true)
    (range : Option ClassFile.ExceptionRange) (call : MethodRef) :
    1 ≤ score o range call ∧ score o range call ≤ 6 := by
  obtain ⟨base, hlow, hhigh, hscore⟩ := exists_score_eq h hcheck call
  have hguard := guardOf_bounds range
  rw [hscore range]
  omega

/-- A finding is only reported for an obligation that has to be met. -/
theorem report_yields (c : ClassFile.Class) (info : MethodInfo) (d : Discard (Symbol MethodRef)) :
    Yields (fun found => ∀ f ∈ found, Finding.Ranked f) (report c info d) := by
  unfold report
  split
  · exact .pure (by simp)
  · next call _ =>
    refine .bind (.obligation call) fun o ho => ?_
    split
    · exact .pure (by simp)
    · next hcheck =>
      refine .bind (.factsOf c info.method) fun facts _ => .pure ?_
      rintro f ⟨⟩
      exact score_ranked ho (by simpa using hcheck) _ _

/-- Reading an instruction keeps the obligations ranked. -/
theorem stepOf_yields (insn : ClassFile.Instruction) : Yields (fun _ => True) (stepOf insn) := by
  unfold stepOf
  dsimp only
  split
  · exact .bind (.interning _) fun _ _ => .pure trivial
  · exact .pure trivial

/-- The findings in instructions are ranked. -/
theorem scanFrom_yields (c : ClassFile.Class) (info : MethodInfo)
    (insns : List ClassFile.Instruction) (s : State (Symbol MethodRef)) :
    Yields (fun found => ∀ f ∈ found, Finding.Ranked f) (scanFrom c info s insns) := by
  induction insns generalizing s with
  | nil => exact .pure (by simp)
  | cons insn insns ih =>
    refine .bind (stepOf_yields insn) fun step _ => ?_
    have hdropped : ∀ dropped,
        Yields (fun found => ∀ f ∈ found, Finding.Ranked f) (reportDropped c info dropped)
      | some d => report_yields c info d
      | none => .pure (by simp)
    refine .bind (hdropped _) fun found hfound => .bind (ih _) fun rest hrest => .pure ?_
    intro f hf
    rcases List.mem_append.mp hf with hf | hf
    · exact hfound f (Option.mem_toList.mp hf)
    · exact hrest f hf

/-- The findings in a method are ranked. -/
theorem visitMethod_yields (c : ClassFile.Class) (info : MethodInfo) :
    Yields (fun outcome => ∀ f ∈ outcome.1, Finding.Ranked f) (visitMethod c info) := by
  unfold visitMethod
  split
  · exact .pure (by simp)
  · refine .bind (.factsOf c info.method) fun facts _ => ?_
    split
    · exact .pure (by simp)
    · next insns _ =>
      exact .bind (scanFrom_yields c info insns .scan) fun found hfound => .pure hfound

/-- The findings in a class are ranked. -/
theorem visit_yields (c : ClassFile.Class) :
    Yields (fun outcome => ∀ f ∈ outcome.1, Finding.Ranked f) (visit c) := by
  refine .bind (.methods c) fun infos _ => .bind (.mapM (visitMethod_yields c) infos) ?_
  intro results hresults
  refine .pure fun f hf => ?_
  obtain ⟨outcome, houtcome, hf⟩ := List.mem_flatMap.mp hf
  exact hresults outcome houtcome f hf

end ReturnCheck

namespace Operation

variable {classes : List ClassFile.Class}

/-- No operation keeps an obligation that is not ranked. -/
theorem run_ranked (op : Operation classes) (s : Client) (hs : s.session.Ranked) :
    (op.run s).2.session.Ranked := by
  cases op with
  | method ref => exact (Yields.interning (SymbolTable.method ref) _ hs).2
  | field ref => exact (Yields.interning (SymbolTable.field ref) _ hs).2
  | invoked op member => exact (Yields.interning (SymbolTable.invoked op member) _ hs).2
  | declared d => exact (Yields.interning (SymbolTable.method _) _ hs).2
  | opcodes d => exact (Yields.factsOf d.owner d.method _ hs).2
  | handler d pc => exact (Yields.factsOf d.owner d.method _ hs).2
  | obligation ref =>
    exact (Yields.obligation _ _ (Yields.interning (SymbolTable.method ref) _ hs).2).2
  | obligationOfHeld index =>
    simp only [run]
    cases s.held[index]? with
    | none => exact hs
    | some sym => exact (Yields.obligation sym _ hs).2
  | methods c => exact (Yields.methods c.val _ hs).2
  | visit c => exact (ReturnCheck.visit_yields c.val _ hs).2
  | clearSymbols => exact hs
  | clearFacts => exact hs
  | clearObligations => exact fun _ he => (List.not_mem_nil he).elim
  | close => exact fun _ he => (List.not_mem_nil he).elim

/-- Whatever a client does keeps the obligations ranked. -/
theorem runAll_ranked (ops : List (Operation classes)) (s : Client) (hs : s.session.Ranked) :
    (runAll ops s).session.Ranked := by
  induction ops generalizing s with
  | nil => exact hs
  | cons op ops ih => exact ih _ (run_ranked op s hs)

end Operation

/-- The first class of the walk that declares an obligation decides, which stays direct only for the
called class; where none does, the catalog and the general rule give an obligation of low priority
that is not direct, and nothing else gives any. Every obligation has the priority of its kind, also
when a session answers for it after any operations, and every finding then has a priority from one
to six. -/
theorem resolve_outcome (classes : List ClassFile.Class) (options : ObligationOptions)
    (ref : MethodRef) :
    (∀ before c later declared,
      walk (.ofClasses classes) ref = before ++ c :: later →
      (∀ b ∈ before, ∀ o, ¬Declares b ref.name ref.signature o) →
      Declares c ref.name ref.signature declared →
      Obligation.resolve (.ofClasses classes) options ref =
        { declared with direct := declared.direct && c.name = ref.owner }) ∧
    ((∀ c ∈ walk (.ofClasses classes) ref, ∀ o, ¬Declares c ref.name ref.signature o) →
      (Catalogued (.ofClasses classes) options ref ∨
          options.checkAll = true ∧ GivesResult ref.name ref.signature →
        Obligation.resolve (.ofClasses classes) options ref = .inherited Obligation.low) ∧
      (¬(Catalogued (.ofClasses classes) options ref ∨
          options.checkAll = true ∧ GivesResult ref.name ref.signature) →
        Obligation.resolve (.ofClasses classes) options ref = .unset)) ∧
    (Obligation.resolve (.ofClasses classes) options ref).Ranked ∧
    ∀ before : List (Operation classes),
      (∀ call, (Session.obligation call
        (Operation.runAll before (.start classes options)).session).1.Ranked) ∧
      ∀ c, ∀ f ∈ (ReturnCheck.visit c
        (Operation.runAll before (.start classes options)).session).1.1,
          1 ≤ f.priority ∧ f.priority ≤ 6 := by
  refine ⟨fun before c later declared => resolve_of_declares, resolve_of_not_declares,
    ranked_resolve _ _ _, fun before => ?_⟩
  have hsession : (Operation.runAll before (.start classes options)).session.Ranked :=
    Operation.runAll_ranked before _ fun _ he => (List.not_mem_nil he).elim
  exact ⟨fun call => (Yields.obligation call _ hsession).1,
    fun c => (ReturnCheck.visit_yields c _ hsession).1⟩

/-- A class with one abstract method that gives a result. -/
private def counter (name super : String) (annotations : List ClassFile.Annotation) :
    ClassFile.Class where
  major := 52
  minor := 0
  access := ClassFile.accAbstract
  name := name
  super := super
  interfaces := []
  fields := []
  methods := [⟨ClassFile.accAbstract, "count", "()I", [], none⟩]
  annotations := annotations
  sourceFile := []
  pool := ⟨#[]⟩

/-- A class that says nothing and extends one whose results are all to be used. -/
def strictCounters : List ClassFile.Class :=
  [counter "a.Counter" "a.Strict" [],
    counter "a.Strict" "" [.mk "Ledu/umd/cs/findbugs/annotations/CheckReturnValue;" true
      [("priority", .enumConst "Ledu/umd/cs/findbugs/annotations/Priority;" "HIGH")]]]

/-- One obligation is inherited from the class that is extended, one comes from the catalog, and one
method is known nowhere. -/
theorem resolve_outcome_strictCounters :
    Obligation.resolve (.ofClasses strictCounters) {} ⟨"a.Counter", "count", "()I", false⟩ =
        .inherited Obligation.high ∧
      Obligation.resolve (.ofClasses strictCounters) {}
          ⟨"java.lang.String", "trim", "()Ljava/lang/String;", false⟩ =
        .inherited Obligation.low ∧
      Obligation.resolve (.ofClasses strictCounters) {} ⟨"a.Counter", "<init>", "()V", false⟩ =
        .unset := by
  refine ⟨?_, ?_, ?_⟩
  · obtain ⟨hdeclared, -⟩ :=
      resolve_outcome strictCounters {} ⟨"a.Counter", "count", "()I", false⟩
    refine hdeclared [counter "a.Counter" "a.Strict" []] _ [] (.check Obligation.high) rfl ?_ ?_
    · rintro b hb
      rw [List.mem_singleton.mp hb]
      exact declaredBy?_eq_none_iff.mp (by decide +kernel)
    · exact declaredBy?_eq_some_iff.mp (by decide +kernel)
  · obtain ⟨-, hnone, -⟩ := resolve_outcome strictCounters {}
      ⟨"java.lang.String", "trim", "()Ljava/lang/String;", false⟩
    refine (hnone fun c hc => ?_).1 (.inl ?_)
    · cases hc
    · exact ⟨"java.lang.String", .inl rfl, by decide +kernel⟩
  · obtain ⟨-, hnone, -⟩ := resolve_outcome strictCounters {}
      ⟨"a.Counter", "<init>", "()V", false⟩
    refine (hnone fun c hc => ?_).2 ?_
    · have hc' : c ∈ [counter "a.Counter" "a.Strict" []] := hc
      rw [List.mem_singleton.mp hc']
      exact declaredBy?_eq_none_iff.mp (by decide +kernel)
    · rintro (hcatalogued | ⟨hcheckAll, -⟩)
      · exact absurd (any_covered_iff.mpr hcatalogued) (by decide +kernel)
      · cases hcheckAll

end ReturnAudit
