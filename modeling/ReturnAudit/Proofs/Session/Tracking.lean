import ReturnAudit.Session
import ReturnAudit.Proofs.Keyed
import ReturnAudit.Proofs.Steps

/-!
# Tracking what a session has kept

Facts and obligations are kept by instance number, and the table of instances can be cleared
independently of them. A ledger records which reference each number was handed out for, dead numbers
included. A session is consistent with a ledger when everything it has kept is true of the reference
that the ledger gives for its number. Every step of a session answers with what is true and leads to
a consistent session again.
-/

namespace ReturnAudit

/-- What holds of references whatever a session has done so far. -/
structure Truth where
  /-- The facts about the method that is declared under a reference. -/
  facts : MethodRef → MethodFacts
  /-- The obligation of a call of a reference. -/
  obligation : MethodRef → Obligation

/-- The reference that each instance number was handed out for. -/
abbrev Ledger := Nat → MethodRef

namespace Session

/-- Whether a number below the next one was handed out for the reference of a symbol. -/
def Issued (ledger : Ledger) (s : Session) (sym : Symbol MethodRef) : Prop :=
  sym.instanceId < s.symbols.next ∧ ledger sym.instanceId = sym.ref

/-- Everything that a session has kept is true of the reference its number was handed out for. -/
structure Consistent (truth : Truth) (ledger : Ledger) (s : Session) : Prop where
  /-- Live instances carry their own reference. -/
  named : ∀ sym ∈ s.symbols.methods, Issued ledger s sym
  /-- Facts are kept for numbers handed out, live or dead. -/
  facts : ∀ e ∈ s.facts, e.1 < s.symbols.next ∧ e.2 = truth.facts (ledger e.1)
  /-- Obligations are kept for numbers handed out, live or dead. -/
  obligations : ∀ e ∈ s.obligations,
    e.1 < s.symbols.next ∧ e.2 = truth.obligation (ledger e.1)
  /-- What is not kept yet is resolved to the truth. -/
  resolved : Obligation.resolve s.hierarchy s.options = truth.obligation

/-- Whether facts are kept for the live instance of a reference. -/
def Knows (s : Session) (ref : MethodRef) : Prop :=
  ∃ sym, s.symbols.methods.find? (fun sym => sym.ref = ref) = some sym ∧
    (s.facts.lookup sym.instanceId).isSome

end Session

/-- A session with a ledger that it is consistent with. -/
structure Tracked (truth : Truth) where
  /-- The session. -/
  session : Session
  /-- The ledger. -/
  ledger : Ledger
  /-- What was kept is true. -/
  consistent : session.Consistent truth ledger

namespace Tracked

variable {truth : Truth}

/-- Whether an instance was handed out, be it live or dead. -/
def Issued (t : Tracked truth) (sym : Symbol MethodRef) : Prop :=
  Session.Issued t.ledger t.session sym

/-- A tracked session in which nothing handed out before is renamed and no facts are lost. -/
structure Later (t u : Tracked truth) : Prop where
  /-- Numbers never go back. -/
  next_le : t.session.symbols.next ≤ u.session.symbols.next
  /-- Numbers handed out keep their reference. -/
  ledger_eq : ∀ id < t.session.symbols.next, u.ledger id = t.ledger id
  /-- Facts kept for a live reference stay kept. -/
  knows : ∀ ref, t.session.Knows ref → u.session.Knows ref

/-- A tracked session is later than itself. -/
theorem Later.refl (t : Tracked truth) : t.Later t :=
  ⟨Nat.le_refl _, fun _ _ => rfl, fun _ h => h⟩

/-- What is later than a later session is later. -/
theorem Later.trans {t u v : Tracked truth} (h : t.Later u) (h' : u.Later v) : t.Later v := by
  refine ⟨Nat.le_trans h.next_le h'.next_le, ?_, fun ref hk => h'.knows ref (h.knows ref hk)⟩
  intro id hid
  rw [h'.ledger_eq id (Nat.lt_of_lt_of_le hid h.next_le), h.ledger_eq id hid]

/-- An instance stays handed out. -/
theorem Issued.later {t u : Tracked truth} {sym : Symbol MethodRef} (h : t.Issued sym)
    (hl : t.Later u) : u.Issued sym := by
  refine ⟨Nat.lt_of_lt_of_le h.1 hl.next_le, ?_⟩
  rw [hl.ledger_eq _ h.1, h.2]

/-- Handing out one more number, for a reference without a live instance. -/
private theorem intern_new (t : Tracked truth) (ref : MethodRef)
    (hnone : t.session.symbols.methods.find? (fun sym => sym.ref = ref) = none) :
    ∃ u : Tracked truth, u.session = { t.session with symbols := { t.session.symbols with
        methods := ⟨ref, t.session.symbols.next⟩ :: t.session.symbols.methods
        next := t.session.symbols.next + 1 } } ∧
      t.Later u ∧ u.Issued ⟨ref, t.session.symbols.next⟩ := by
  let ledger : Ledger := fun id => if id = t.session.symbols.next then ref else t.ledger id
  have hold : ∀ id < t.session.symbols.next, ledger id = t.ledger id := by
    intro id hid
    simp only [ledger, if_neg (Nat.ne_of_lt hid)]
  have hnew : ledger t.session.symbols.next = ref := by simp only [ledger, if_pos]
  refine ⟨⟨{ t.session with symbols := { t.session.symbols with
      methods := ⟨ref, t.session.symbols.next⟩ :: t.session.symbols.methods
      next := t.session.symbols.next + 1 } }, ledger, ?_, ?_, ?_, t.consistent.resolved⟩,
    rfl, ?_, ?_⟩
  · intro sym hsym
    rcases List.mem_cons.mp hsym with rfl | hsym
    · exact ⟨Nat.lt_succ_self _, hnew⟩
    · have hs := t.consistent.named sym hsym
      exact ⟨Nat.lt_succ_of_lt hs.1, (hold _ hs.1).trans hs.2⟩
  · intro e he
    have hs := t.consistent.facts e he
    exact ⟨Nat.lt_succ_of_lt hs.1, by rw [hold _ hs.1]; exact hs.2⟩
  · intro e he
    have hs := t.consistent.obligations e he
    exact ⟨Nat.lt_succ_of_lt hs.1, by rw [hold _ hs.1]; exact hs.2⟩
  · refine ⟨Nat.le_succ _, hold, ?_⟩
    rintro known ⟨sym, hfind, hfacts⟩
    refine ⟨sym, ?_, hfacts⟩
    have hne : ¬ ref = known := by
      rintro rfl
      rw [hnone] at hfind
      cases hfind
    simpa only [List.find?_cons, hne, decide_false] using hfind
  · exact ⟨Nat.lt_succ_self _, hnew⟩

/-- Asking for the instance of a method reference. -/
theorem intern_method (t : Tracked truth) (ref : MethodRef) :
    ∃ (u : Tracked truth) (sym : Symbol MethodRef),
      Session.interning (SymbolTable.method ref) t.session = (sym, u.session) ∧
        t.Later u ∧ u.Issued sym ∧ sym.ref = ref ∧
        u.session.symbols.methods.find? (fun sym => sym.ref = ref) = some sym := by
  cases hfind : t.session.symbols.methods.find? (fun sym => sym.ref = ref) with
  | some sym =>
    refine ⟨t, sym, ?_, Later.refl t, ?_, ?_, hfind⟩
    · simp only [Session.interning, SymbolTable.method, hfind]
    · exact t.consistent.named sym (List.mem_of_find?_eq_some hfind)
    · simpa using List.find?_some hfind
  | none =>
    obtain ⟨u, hu, hl, hi⟩ := intern_new t ref hfind
    refine ⟨u, ⟨ref, t.session.symbols.next⟩, ?_, hl, hi, rfl, ?_⟩
    · simp only [Session.interning, SymbolTable.method, hfind, hu]
    · simp only [hu, List.find?_cons, decide_true]

/-- Asking for the instance of a field reference leaves the method references alone. -/
theorem intern_field (t : Tracked truth) (ref : FieldRef) :
    ∃ (u : Tracked truth) (sym : Symbol FieldRef),
      Session.interning (SymbolTable.field ref) t.session = (sym, u.session) ∧
        t.Later u ∧ sym.ref = ref := by
  cases hfind : t.session.symbols.fields.find? (fun sym => sym.ref = ref) with
  | some sym =>
    refine ⟨t, sym, ?_, Later.refl t, by simpa using List.find?_some hfind⟩
    simp only [Session.interning, SymbolTable.field, hfind]
  | none =>
    refine ⟨⟨{ t.session with symbols := { t.session.symbols with
        fields := ⟨ref, t.session.symbols.next⟩ :: t.session.symbols.fields
        next := t.session.symbols.next + 1 } }, t.ledger, ?_, ?_, ?_, t.consistent.resolved⟩,
      ⟨ref, t.session.symbols.next⟩, ?_, ?_, rfl⟩
    · intro sym hsym
      have hs := t.consistent.named sym hsym
      exact ⟨Nat.lt_succ_of_lt hs.1, hs.2⟩
    · intro e he
      have hs := t.consistent.facts e he
      exact ⟨Nat.lt_succ_of_lt hs.1, hs.2⟩
    · intro e he
      have hs := t.consistent.obligations e he
      exact ⟨Nat.lt_succ_of_lt hs.1, hs.2⟩
    · simp only [Session.interning, SymbolTable.field, hfind]
    · exact ⟨Nat.le_succ _, fun _ _ => rfl, fun _ h => h⟩

/-- Asking for the instance of the method that an instruction calls. -/
theorem intern_invoked (t : Tracked truth) (op : Opcode) (member : Option ClassFile.MemberRef) :
    ∃ (u : Tracked truth) (call : Option (Symbol MethodRef)),
      Session.interning (SymbolTable.invoked op member) t.session = (call, u.session) ∧
        t.Later u ∧ (∀ sym ∈ call, u.Issued sym) ∧
        call.map Symbol.ref = MethodRef.invoked? op member := by
  cases hcall : MethodRef.invoked? op member with
  | none =>
    refine ⟨t, none, ?_, Later.refl t, by simp, rfl⟩
    simp only [Session.interning, SymbolTable.invoked, hcall]
    rfl
  | some ref =>
    obtain ⟨u, sym, hu, hl, hi, href, _⟩ := intern_method t ref
    refine ⟨u, some sym, ?_, hl, by simpa using hi, by simp [href]⟩
    have hmap : Session.interning (SymbolTable.invoked op member) t.session =
        (some (Session.interning (SymbolTable.method ref) t.session).1,
          (Session.interning (SymbolTable.method ref) t.session).2) := by
      simp only [SymbolTable.invoked, hcall]
      rfl
    rw [hmap, hu]

/-- Keeping one more entry of facts, which is true of its reference. -/
private theorem keep_facts (t : Tracked truth) {sym : Symbol MethodRef} (h : t.Issued sym)
    {facts : MethodFacts} (hf : facts = truth.facts sym.ref) :
    ∃ u : Tracked truth, t.Later u ∧
      u.session = { t.session with facts := (sym.instanceId, facts) :: t.session.facts } := by
  refine ⟨⟨{ t.session with facts := (sym.instanceId, facts) :: t.session.facts }, t.ledger,
    t.consistent.named, ?_, t.consistent.obligations, t.consistent.resolved⟩,
    ⟨Nat.le_refl _, fun _ _ => rfl, ?_⟩, rfl⟩
  · intro e he
    rcases List.mem_cons.mp he with rfl | he
    · exact ⟨h.1, by simpa only [h.2] using hf⟩
    · exact t.consistent.facts e he
  · rintro known ⟨sym', hfind, hsome⟩
    refine ⟨sym', hfind, ?_⟩
    simp only [List.lookup_cons]
    split
    · rfl
    · exact hsome

/-- Keeping one more obligation, which is true of its reference. -/
private theorem keep_obligation (t : Tracked truth) {sym : Symbol MethodRef} (h : t.Issued sym)
    {o : Obligation} (ho : o = truth.obligation sym.ref) :
    ∃ u : Tracked truth, t.Later u ∧
      u.session =
        { t.session with obligations := (sym.instanceId, o) :: t.session.obligations } := by
  refine ⟨⟨{ t.session with obligations := (sym.instanceId, o) :: t.session.obligations },
    t.ledger, t.consistent.named, t.consistent.facts, ?_, t.consistent.resolved⟩,
    ⟨Nat.le_refl _, fun _ _ => rfl, fun _ hk => hk⟩, rfl⟩
  intro e he
  rcases List.mem_cons.mp he with rfl | he
  · exact ⟨h.1, by simpa only [h.2] using ho⟩
  · exact t.consistent.obligations e he

/-- Asking for the facts about a method, when they are true of it or already kept. -/
theorem factsOf_eq (t : Tracked truth) (c : ClassFile.Class) (m : ClassFile.Method)
    (h : truth.facts (.declared c m) = .ofMethod m ∨ t.session.Knows (.declared c m)) :
    ∃ u : Tracked truth,
      Session.factsOf c m t.session = (truth.facts (.declared c m), u.session) ∧
        t.Later u ∧ u.session.Knows (.declared c m) := by
  obtain ⟨u, sym, hu, hl, hi, href, hfind⟩ := intern_method t (.declared c m)
  have hrun : Session.factsOf c m t.session = Session.factsUnder sym m u.session := run_bind hu
  cases hlook : u.session.facts.lookup sym.instanceId with
  | some facts =>
    have hfacts : facts = truth.facts (.declared c m) :=
      (u.consistent.facts _ (mem_of_lookup hlook)).2.trans (by rw [hi.2, href])
    refine ⟨u, ?_, hl, sym, hfind, by simp [hlook]⟩
    simp only [hrun, Session.factsUnder, hlook, hfacts]
  | none =>
    have hm : truth.facts (.declared c m) = .ofMethod m := by
      refine h.resolve_right fun hknows => ?_
      obtain ⟨sym', hfind', hsome⟩ := hl.knows _ hknows
      cases hfind.symm.trans hfind'
      simp [hlook] at hsome
    obtain ⟨v, hv, hs⟩ := keep_facts u hi
      (show MethodFacts.ofMethod m = truth.facts sym.ref by rw [href, hm])
    refine ⟨v, ?_, hl.trans hv, sym, ?_, ?_⟩
    · simp only [hrun, Session.factsUnder, hlook, hs, hm]
    · simpa only [hs] using hfind
    · simp [hs]

/-- Asking for the obligation of an instance that was handed out, be it live or dead. -/
theorem obligation_eq (t : Tracked truth) {call : Symbol MethodRef} (h : t.Issued call) :
    ∃ u : Tracked truth,
      Session.obligation call t.session = (truth.obligation call.ref, u.session) ∧
        t.Later u := by
  cases hlook : t.session.obligations.lookup call.instanceId with
  | some o =>
    have ho : o = truth.obligation call.ref :=
      (t.consistent.obligations _ (mem_of_lookup hlook)).2.trans (by rw [h.2])
    exact ⟨t, by simp only [Session.obligation, hlook, ho], Later.refl t⟩
  | none =>
    obtain ⟨u, hu, hs⟩ := keep_obligation t h rfl
    exact ⟨u, by simp only [Session.obligation, hlook, t.consistent.resolved, hs], hu⟩

/-- A list of steps with known answers. The answer of a step may rest on what was there before the
first step and on what the steps before it left behind: `K` is what each step leaves behind, and it
is still there at the end. -/
theorem mapM_leaves {α β : Type} {f : β → StateM Session α} (g : β → α)
    (K : β → Tracked truth → Prop) (hK : ∀ b t u, t.Later u → K b t → K b u) (l : List β)
    (t : Tracked truth)
    (hf : ∀ done b rest, l = done ++ b :: rest → ∀ u, t.Later u → (∀ b' ∈ done, K b' u) →
      ∃ v : Tracked truth, f b u.session = (g b, v.session) ∧ u.Later v ∧ K b v) :
    ∃ u : Tracked truth, l.mapM f t.session = (l.map g, u.session) ∧ t.Later u ∧
      ∀ b ∈ l, K b u := by
  -- the steps that are done are a prefix of the list, the induction is on what is left of it
  have hrun : ∀ rest done, l = done ++ rest → ∀ u : Tracked truth, t.Later u →
      (∀ b ∈ done, K b u) → ∃ v : Tracked truth,
        rest.mapM f u.session = (rest.map g, v.session) ∧ u.Later v ∧ ∀ b ∈ l, K b v := by
    intro rest
    induction rest with
    | nil =>
      intro done hl u _ hdone
      refine ⟨u, rfl, Later.refl u, ?_⟩
      rwa [hl, List.append_nil]
    | cons b rest ih =>
      intro done hl u htu hdone
      obtain ⟨v, hv, huv, hb⟩ := hf done b rest hl u htu hdone
      have hdone' : ∀ b' ∈ done ++ [b], K b' v := by
        intro b' hb'
        rcases List.mem_append.mp hb' with hb' | hb'
        · exact hK b' u v huv (hdone b' hb')
        · rwa [List.mem_singleton.mp hb']
      obtain ⟨w, hw, hvw, hall⟩ := ih (done ++ [b]) (by simp [hl]) v (htu.trans huv) hdone'
      exact ⟨w, run_mapM_cons hv hw, huv.trans hvw, hall⟩
  exact hrun l [] rfl t (Later.refl t) (by simp)

/-- A list of steps that have their answers in every tracked session. -/
theorem mapM_eq_of_forall {α β : Type} {f : β → StateM Session α} (g : β → α) (l : List β)
    (hf : ∀ b ∈ l, ∀ t : Tracked truth,
      ∃ u : Tracked truth, f b t.session = (g b, u.session) ∧ t.Later u) (t : Tracked truth) :
    ∃ u : Tracked truth, l.mapM f t.session = (l.map g, u.session) ∧ t.Later u := by
  obtain ⟨u, hu, htu, -⟩ := mapM_leaves g (fun _ _ => True) (fun _ _ _ _ _ => trivial) l t <| by
    intro done b rest hsplit u _ _
    obtain ⟨v, hv, huv⟩ := hf b (by simp [hsplit]) u
    exact ⟨v, hv, huv, trivial⟩
  exact ⟨u, hu, htu⟩

/-- The declared methods of a class with their instances. -/
theorem methods_eq (t : Tracked truth) (c : ClassFile.Class) :
    ∃ (u : Tracked truth) (infos : List MethodInfo),
      Session.methods c t.session = (infos, u.session) ∧ t.Later u ∧
        infos.map MethodInfo.method = c.methods ∧
        ∀ info ∈ infos, info.symbol.ref = .declared c info.method ∧ u.Issued info.symbol := by
  unfold Session.methods
  induction c.methods generalizing t with
  | nil => exact ⟨t, [], rfl, Later.refl t, rfl, by simp⟩
  | cons m methods ih =>
    obtain ⟨u, sym, hu, htu, hi, href, _⟩ := intern_method t (.declared c m)
    obtain ⟨v, infos, hv, huv, hmap, hinfos⟩ := ih u
    refine ⟨v, ⟨m, sym⟩ :: infos, run_mapM_cons (run_bind hu) hv, htu.trans huv, ?_, ?_⟩
    · rw [List.map_cons, hmap]
    · intro info hinfo
      rcases List.mem_cons.mp hinfo with rfl | hinfo
      · exact ⟨href, hi.later huv⟩
      · exact hinfos info hinfo

/-- Steps on the instances that each lead to a tracked session do so one after another. -/
private theorem interning_forM {β : Type} {f : β → StateM SymbolTable Unit}
    (hf : ∀ b (t : Tracked truth), ∃ u : Tracked truth,
      (Session.interning (f b) t.session).2 = u.session) (l : List β) (t : Tracked truth) :
    ∃ u : Tracked truth, (Session.interning (l.forM f) t.session).2 = u.session := by
  induction l generalizing t with
  | nil => exact ⟨t, rfl⟩
  | cons b l ih =>
    obtain ⟨u, hu⟩ := hf b t
    obtain ⟨v, hv⟩ := ih u
    refine ⟨v, ?_⟩
    rw [← hv, ← hu]
    rfl

/-- Handing out the instances of the members of a class. -/
private theorem interning_members (c : ClassFile.Class) (t : Tracked truth) :
    ∃ u : Tracked truth, (Session.interning (Session.internMembers c) t.session).2 = u.session := by
  have hmethods : ∃ u : Tracked truth, (Session.interning (c.methods.forM fun m =>
      discard (SymbolTable.method (.declared c m))) t.session).2 = u.session := by
    refine interning_forM (fun m t => ?_) c.methods t
    obtain ⟨u, sym, hu, _⟩ := intern_method t (.declared c m)
    exact ⟨u, congrArg Prod.snd hu⟩
  obtain ⟨u, hu⟩ := hmethods
  have hfields : ∃ v : Tracked truth, (Session.interning (c.fields.forM fun f =>
      discard (SymbolTable.field (.declared c f))) u.session).2 = v.session := by
    refine interning_forM (fun f t => ?_) c.fields u
    obtain ⟨u, sym, hu, _⟩ := intern_field t (.declared c f)
    exact ⟨u, congrArg Prod.snd hu⟩
  obtain ⟨v, hv⟩ := hfields
  refine ⟨v, ?_⟩
  rw [← hv, ← hu]
  rfl

/-- A session starts out consistent with whatever is true of methods. -/
theorem exists_start (classes : List ClassFile.Class) (options : ObligationOptions)
    (h : truth.obligation = Obligation.resolve (.ofClasses classes) options) :
    ∃ t : Tracked truth, t.session = Session.start classes options := by
  let initial : Tracked truth :=
    ⟨⟨.empty, .ofClasses classes, [], options, []⟩, fun _ => ⟨[], [], [], false⟩,
      fun _ hsym => (List.not_mem_nil hsym).elim, fun _ he => (List.not_mem_nil he).elim,
      fun _ he => (List.not_mem_nil he).elim, h.symm⟩
  obtain ⟨t, ht⟩ := interning_forM interning_members classes initial
  exact ⟨t, ht.symm⟩

/-- Forgetting all instances leaves what was kept true of the dead ones. -/
theorem clearSymbols_eq (t : Tracked truth) :
    ∃ u : Tracked truth, t.session.clearSymbols = u.session ∧
      ∀ sym, t.Issued sym → u.Issued sym :=
  ⟨⟨t.session.clearSymbols, t.ledger, fun _ hsym => (List.not_mem_nil hsym).elim,
    t.consistent.facts, t.consistent.obligations, t.consistent.resolved⟩, rfl, fun _ h => h⟩

/-- Forgetting all facts. -/
theorem clearFacts_eq (t : Tracked truth) :
    ∃ u : Tracked truth, t.session.clearFacts = u.session ∧
      ∀ sym, t.Issued sym → u.Issued sym :=
  ⟨⟨t.session.clearFacts, t.ledger, t.consistent.named, fun _ he => (List.not_mem_nil he).elim,
    t.consistent.obligations, t.consistent.resolved⟩, rfl, fun _ h => h⟩

/-- Forgetting all obligations. -/
theorem clearObligations_eq (t : Tracked truth) :
    ∃ u : Tracked truth, t.session.clearObligations = u.session ∧
      ∀ sym, t.Issued sym → u.Issued sym :=
  ⟨⟨t.session.clearObligations, t.ledger, t.consistent.named, t.consistent.facts,
    fun _ he => (List.not_mem_nil he).elim, t.consistent.resolved⟩, rfl, fun _ h => h⟩

end Tracked

end ReturnAudit
