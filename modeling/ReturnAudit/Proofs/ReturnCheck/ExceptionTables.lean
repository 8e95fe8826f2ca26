import ReturnAudit.Proofs.Audit.Outcome
import ReturnAudit.Proofs.Hierarchy.Bodies
import ReturnAudit.Proofs.ReturnCheck.Exactness
import ReturnAudit.Proofs.Session.Priorities
import Mathlib.Data.List.Forall2

/-!
# What exception tables do

A table tells the detector one thing: how narrow the narrowest range around a dropped result is. So
the order of its entries does not matter, and further entries can only make findings more severe, by
two at most. Which findings there are does not depend on tables at all.
-/

namespace ReturnAudit

namespace ClassFile

namespace ExceptionRange

/-- Whether an entry of a table is the earliest of least width among those around a position. -/
def EarliestNarrowest (table : List ExceptionRange) (pc : Int) (r : ExceptionRange) : Prop :=
  ∃ before after, table = before ++ r :: after ∧ r.startPc ≤ pc ∧ pc < r.endPc ∧
    (∀ b ∈ before, b.startPc ≤ pc → pc < b.endPc → r.width < b.width) ∧
    ∀ a ∈ after, a.startPc ≤ pc → pc < a.endPc → r.width ≤ a.width

variable {table table' : List ExceptionRange} {pc : Int} {r s : ExceptionRange}

/-- The earliest of the narrowest ranges is no wider than any range around the position. -/
theorem EarliestNarrowest.width_le (h : EarliestNarrowest table pc r) (hs : s ∈ table)
    (hstart : s.startPc ≤ pc) (hend : pc < s.endPc) : r.width ≤ s.width := by
  obtain ⟨before, after, rfl, -, -, hbefore, hafter⟩ := h
  rcases List.mem_append.mp hs with hmem | hmem
  · exact Int.le_of_lt (hbefore s hmem hstart hend)
  · rcases List.mem_cons.mp hmem with rfl | hmem
    · exact Int.le_refl _
    · exact hafter s hmem hstart hend

/-- The range found at a position is the earliest of least width around it. -/
theorem narrowest_eq_some_iff : narrowest table pc = some r ↔ EarliestNarrowest table pc r := by
  rw [← ReturnCheck.firstNarrowest_eq, ReturnCheck.firstNarrowest, List.find?_eq_some_iff_append]
  simp only [decide_eq_true_eq, Bool.not_eq_true', decide_eq_false_iff_not]
  constructor
  · rintro ⟨hmin, left, right, hsplit, hleft⟩
    obtain ⟨before, rest, rfl, rfl, hrest⟩ := List.filter_eq_append_iff.mp hsplit
    obtain ⟨gap, after, rfl, hgap, hr, rfl⟩ := List.filter_eq_cons_iff.mp hrest
    obtain ⟨hstart, hend⟩ := of_decide_eq_true hr
    have hle : ∀ s ∈ before ++ (gap ++ r :: after), s.startPc ≤ pc → pc < s.endPc →
        r.width ≤ s.width := fun s hs hstart hend =>
      hmin s (List.mem_filter.mpr ⟨hs, decide_eq_true ⟨hstart, hend⟩⟩)
    refine ⟨before ++ gap, after, by simp, hstart, hend, fun b hb hstart hend => ?_,
      fun a ha => hle a (by simp [ha])⟩
    rcases List.mem_append.mp hb with hb | hb
    · -- an earlier range was passed over, so it is wider than some other
      by_contra hnlt
      refine hleft b (List.mem_filter.mpr ⟨hb, decide_eq_true ⟨hstart, hend⟩⟩) fun s hs => ?_
      have hwidth := hmin s hs
      omega
    · exact absurd (decide_eq_true ⟨hstart, hend⟩) (hgap b hb)
  · intro h
    have hle := fun s => h.width_le (s := s)
    obtain ⟨before, after, rfl, hstart, hend, hbefore, -⟩ := h
    refine ⟨fun s hs => ?_, _, _,
      by rw [List.filter_append, List.filter_cons_of_pos (by simp [hstart, hend])],
      fun b hb hmin => ?_⟩
    · obtain ⟨hmem, hs⟩ := List.mem_filter.mp hs
      exact hle s hmem (of_decide_eq_true hs).1 (of_decide_eq_true hs).2
    · obtain ⟨hmem, hb⟩ := List.mem_filter.mp hb
      have hlt := hbefore b hmem (of_decide_eq_true hb).1 (of_decide_eq_true hb).2
      have hge := hmin r (by simp [hstart, hend])
      omega

/-- Comparing further ranges does not lose the candidate. -/
theorem isSome_foldl_narrower (best : ExceptionRange) (ranges : List ExceptionRange) :
    (ranges.foldl narrower (some best)).isSome = true := by
  induction ranges generalizing best with
  | nil => rfl
  | cons r ranges ih =>
    rw [List.foldl_cons, narrower]
    split
    · exact ih r
    · exact ih best

/-- No range is found exactly at the positions that no entry is around. -/
theorem narrowest_eq_none_iff :
    narrowest table pc = none ↔ ∀ r ∈ table, ¬ (r.startPc ≤ pc ∧ pc < r.endPc) := by
  have hfilter : (table.filter fun r => r.contains pc) = [] ↔
      ∀ r ∈ table, ¬ (r.startPc ≤ pc ∧ pc < r.endPc) := by
    rw [List.filter_eq_nil_iff]
    simp only [contains, Bool.and_eq_true, decide_eq_true_eq]
  rw [← hfilter, narrowest]
  cases table.filter fun r => r.contains pc with
  | nil => simp
  | cons best ranges =>
    have hsome := isSome_foldl_narrower best ranges
    simp only [List.foldl_cons, narrower, reduceCtorEq, iff_false]
    intro hnone
    rw [hnone] at hsome
    cases hsome

/-- With more ranges around it, a position is protected at least as narrowly. -/
theorem guardOf_narrowest_le (h : table ⊆ table') (pc : Int) :
    ReturnCheck.guardOf (narrowest table pc) ≤ ReturnCheck.guardOf (narrowest table' pc) := by
  cases hr : narrowest table pc with
  | none => exact (ReturnCheck.guardOf_bounds _).1
  | some r =>
    obtain ⟨before, after, rfl, hstart, hend, -⟩ := narrowest_eq_some_iff.mp hr
    have hmem : r ∈ table' := h (by simp)
    cases hs : narrowest table' pc with
    | none => exact absurd ⟨hstart, hend⟩ (narrowest_eq_none_iff.mp hs r hmem)
    | some s =>
      have hle := (narrowest_eq_some_iff.mp hs).width_le hmem hstart hend
      simp only [ReturnCheck.guardOf]
      (repeat' split) <;> omega

end ExceptionRange

section

variable (R : List ExceptionRange → List ExceptionRange → Prop)

/-- Whether two bodies differ in their exception tables only, and these are related. -/
structure Code.Retabled (code code' : Code) : Prop where
  /-- The rest is the same. -/
  rest : code' = { code with exceptionTable := code'.exceptionTable }
  /-- The tables are related. -/
  table : R code.exceptionTable code'.exceptionTable

/-- Whether two methods differ in the exception tables of their bodies only. -/
structure Method.Retabled (m m' : Method) : Prop where
  /-- The rest is the same. -/
  rest : m' = { m with code := m'.code }
  /-- Both have a body or none has. -/
  code : Option.Rel (Code.Retabled R) m.code m'.code

/-- Whether two classes differ in the exception tables of their methods only. -/
structure Class.Retabled (c c' : Class) : Prop where
  /-- The rest is the same. -/
  rest : c' = { c with methods := c'.methods }
  /-- The methods stand in the same order. -/
  methods : List.Forall₂ (Method.Retabled R) c.methods c'.methods

end

variable {R : List ExceptionRange → List ExceptionRange → Prop}

/-- A body with another table differs from it the other way round. -/
theorem Code.Retabled.flip {code code' : Code} (h : code.Retabled R code') :
    code'.Retabled (flip R) code := by
  obtain ⟨rest, table⟩ := h
  refine ⟨?_, table⟩
  rw [rest]

/-- A method with other tables differs from it the other way round. -/
theorem Method.Retabled.flip {m m' : Method} (h : m.Retabled R m') :
    m'.Retabled (flip R) m := by
  obtain ⟨rest, code⟩ := h
  refine ⟨by rw [rest], ?_⟩
  generalize m.code = body, m'.code = body' at code
  cases code with
  | none => exact .none
  | some hcode => exact .some hcode.flip

/-- A class with other tables differs from it the other way round. -/
theorem Class.Retabled.flip {c c' : Class} (h : c.Retabled R c') :
    c'.Retabled (flip R) c := by
  obtain ⟨rest, methods⟩ := h
  exact ⟨by rw [rest], List.Forall₂.flip (methods.imp fun _ _ hm => hm.flip)⟩

section

variable {m m' : Method} (h : m.Retabled R m')
include h

/-- Either both methods are without a body, or their bodies have related tables. -/
theorem Method.Retabled.code_cases :
    m.code = none ∧ m'.code = none ∨
      ∃ code table, m.code = some code ∧
        m'.code = some { code with exceptionTable := table } ∧ R code.exceptionTable table := by
  have hcode := h.code
  generalize m.code = body, m'.code = body' at hcode
  cases hcode with
  | none => exact .inl ⟨rfl, rfl⟩
  | some hcode => exact .inr ⟨_, _, rfl, congrArg some hcode.rest, hcode.table⟩

/-- Tables belong to the body. -/
theorem Method.Retabled.withoutBody_eq : m.withoutBody = m'.withoutBody := by
  rw [h.rest]
  rfl

/-- The instructions do not depend on tables. -/
theorem Method.Retabled.instructions_eq : m.instructions = m'.instructions := by
  obtain ⟨hcode, hcode'⟩ | ⟨code, table, hcode, hcode', -⟩ := h.code_cases
  · rw [Method.instructions, Method.instructions, hcode, hcode']
  · rw [Method.instructions, Method.instructions, hcode, hcode']

/-- Whether a body is scanned does not depend on its table. -/
theorem Method.Retabled.isScanned_eq : ReturnCheck.isScanned m = ReturnCheck.isScanned m' := by
  unfold ReturnCheck.isScanned Method.hasBody
  rw [h.instructions_eq, h.rest]

/-- A position stands in its line whatever protects it. -/
theorem Method.Retabled.lineAt_eq (pc : Int) :
    (m.code.map fun code => code.lineAt pc) = m'.code.map fun code => code.lineAt pc := by
  obtain ⟨hcode, hcode'⟩ | ⟨code, table, hcode, hcode', -⟩ := h.code_cases
  · rw [hcode, hcode']
  · rw [hcode, hcode']
    rfl

end

/-- Without bodies the classes are the same. -/
theorem Class.Retabled.withoutBodies_eq {c c' : Class} (h : c.Retabled R c') :
    c.withoutBodies = c'.withoutBodies := by
  have hmethods : c.methods.map Method.withoutBody = c'.methods.map Method.withoutBody := by
    rw [← List.forall₂_eq_eq_eq, List.forall₂_map_left_iff, List.forall₂_map_right_iff]
    exact h.methods.imp fun _ _ hm => hm.withoutBody_eq
  rw [Class.withoutBodies, Class.withoutBodies, hmethods, h.rest]

/-- The classes have one name. -/
theorem Class.Retabled.name_eq {c c' : Class} (h : c.Retabled R c') : c.name = c'.name := by
  rw [h.rest]

/-- Methods are declared under the same reference. -/
theorem Class.Retabled.declared_eq {c c' : Class} (h : c.Retabled R c') {m m' : Method}
    (hm : m.Retabled R m') : MethodRef.declared c m = .declared c' m' := by
  rw [h.rest, hm.rest]
  rfl

end ClassFile

open ClassFile (Class Code ExceptionRange Method)

/-- Whether facts tell the same opcodes and at most further ranges. -/
structure MethodFacts.Within (facts facts' : MethodFacts) : Prop where
  /-- The opcodes are the same. -/
  opcodes : facts.opcodes = facts'.opcodes
  /-- No range is missing. -/
  handlers : facts.handlers ⊆ facts'.handlers

/-- Facts are within themselves. -/
theorem MethodFacts.Within.refl (facts : MethodFacts) : facts.Within facts :=
  ⟨rfl, List.Subset.refl _⟩

/-- Whether two findings are the same but for a priority that is higher by two at most. -/
structure Finding.Raised (f g : Finding) : Prop where
  /-- The rest is the same. -/
  rest : g = { f with priority := g.priority }
  /-- The priority is not lowered. -/
  le : f.priority ≤ g.priority
  /-- The priority is raised by two at most. -/
  le_add_two : g.priority ≤ f.priority + 2

/-- What is raised in both directions is the same. -/
theorem Finding.Raised.antisymm {f g : Finding} (h : f.Raised g) (h' : g.Raised f) : f = g := by
  rw [h.rest, Int.le_antisymm h'.le h.le]

/-- Whether the same obligations hold, and methods are described alike but for further ranges. -/
structure Truth.Within (truth truth' : Truth) : Prop where
  /-- Methods may be protected by further ranges. -/
  facts : ∀ ref, (truth.facts ref).Within (truth'.facts ref)
  /-- Obligations are the same. -/
  obligation : truth.obligation = truth'.obligation
  /-- Obligations have the priority of their kind. -/
  ranked : ∀ ref, (truth.obligation ref).Ranked

section

variable {R : List ExceptionRange → List ExceptionRange → Prop}
  (hR : ∀ {table table'}, R table table' → table ⊆ table')
include hR

/-- With more ranges in its table a method has the same opcodes and more handlers. -/
theorem MethodFacts.within_ofMethod {m m' : Method} (h : m.Retabled R m') :
    (MethodFacts.ofMethod m).Within (.ofMethod m') := by
  obtain ⟨hcode, hcode'⟩ | ⟨code, table, hcode, hcode', htable⟩ := h.code_cases
  · simp only [ofMethod, hcode, hcode']
    exact .refl _
  · simp only [ofMethod, hcode, hcode']
    split
    · exact .refl _
    · exact ⟨rfl, hR htable⟩

/-- The first method with a property is found at the same place. -/
theorem within_elim_find? {p q : Method → Bool} {methods methods' : List Method}
    (h : List.Forall₂ (Method.Retabled R) methods methods')
    (hpq : ∀ {m m' : Method}, m.Retabled R m' → p m = q m') :
    ((methods.find? p).elim ⟨.empty, []⟩ MethodFacts.ofMethod).Within
      ((methods'.find? q).elim ⟨.empty, []⟩ MethodFacts.ofMethod) := by
  induction h with
  | nil => exact .refl _
  | cons hm _ ih =>
    rw [List.find?_cons, List.find?_cons, hpq hm]
    split
    · exact MethodFacts.within_ofMethod hR hm
    · exact ih

/-- The facts about the methods of a class are those of the other, with further ranges. -/
theorem within_factsAmong {c c' : ClassFile.Class} (h : c.Retabled R c') (ref : MethodRef) :
    (Audit.factsAmong [c] ref).Within (Audit.factsAmong [c'] ref) := by
  unfold Audit.factsAmong
  rw [List.find?_singleton, List.find?_singleton, h.name_eq]
  split
  · refine within_elim_find? hR h.methods fun hm => ?_
    rw [hm.isScanned_eq, h.declared_eq hm]
  · exact .refl _

end

namespace ReturnCheck

variable {R : List ExceptionRange → List ExceptionRange → Prop} {truth truth' : Truth}
  {c c' : ClassFile.Class} {m m' : Method}

/-- With further ranges, an ignored result is still a finding or still none. -/
theorem findingOf_raised (h : truth.Within truth') (hc : c.Retabled R c') (hm : m.Retabled R m')
    (d : Discard MethodRef) :
    Option.Rel Finding.Raised (findingOf truth c m d) (findingOf truth' c' m' d) := by
  unfold findingOf
  cases d.call with
  | none => exact .none
  | some call =>
    simp only [Option.bind_some, ← h.obligation, ← hc.declared_eq hm]
    split
    · rename_i hcheck
      obtain ⟨base, -, -, hscore⟩ := exists_score_eq (h.ranked call) hcheck call
      have hle := ExceptionRange.guardOf_narrowest_le (h.facts (.declared c m)).handlers d.pc
      have hlow := guardOf_bounds ((truth.facts (.declared c m)).narrowestHandler d.pc)
      have hhigh := guardOf_bounds ((truth'.facts (.declared c m)).narrowestHandler d.pc)
      rw [hm.lineAt_eq, hc.name_eq, hscore, hscore]
      refine .some ⟨rfl, ?_, ?_⟩
      · exact Int.add_le_add_left hle base
      · dsimp only
        omega
    · exact .none

/-- With more ranges a method has the same findings, some of them raised, and its body is read as
before. -/
theorem methodOutcome_raised (h : truth.Within truth') (hc : c.Retabled R c')
    (hm : m.Retabled R m') :
    List.Forall₂ Finding.Raised (methodOutcome truth c m).1 (methodOutcome truth' c' m').1 ∧
      (methodOutcome truth c m).2 = (methodOutcome truth' c' m').2 := by
  have hopcodes : (truth.facts (.declared c m)).opcodes =
      (truth'.facts (.declared c' m')).opcodes := by
    rw [← hc.declared_eq hm]
    exact (h.facts _).opcodes
  have hscannable : ∀ ops families, scannable m ops families = scannable m' ops families := by
    intro ops families
    unfold scannable Method.hasBody
    rw [hm.instructions_eq]
  unfold methodOutcome
  rw [hm.isScanned_eq, hopcodes, hscannable]
  split
  · split
    · exact ⟨.nil, rfl⟩
    · rename_i insns _
      have hsame : List.Forall₂ Eq (discards .scan (insns.map refStep)) _ := List.forall₂_refl _
      refine ⟨List.rel_filterMap ?_ hsame, rfl⟩
      rintro d _ rfl
      exact findingOf_raised h hc hm d
  · exact ⟨.nil, rfl⟩

/-- With further ranges, a class has the same findings, which are raised, and as many bodies are
read. -/
theorem classOutcome_raised (h : truth.Within truth') (hc : c.Retabled R c') :
    List.Forall₂ Finding.Raised (classOutcome truth c).1 (classOutcome truth' c').1 ∧
      (classOutcome truth c).2 = (classOutcome truth' c').2 := by
  have hmethods := hc.methods
  simp only [classOutcome]
  generalize c.methods = methods, c'.methods = methods' at hmethods
  induction hmethods with
  | nil => exact ⟨.nil, rfl⟩
  | cons hm _ ih =>
    obtain ⟨hfindings, hread⟩ := methodOutcome_raised h hc hm
    simp only [List.flatMap_cons, List.countP_cons, hread]
    exact ⟨List.rel_append hfindings ih.1, by rw [ih.2]⟩

/-- A visit of a class in a new session finds what holds of its own methods and of the obligations
of all classes. -/
theorem visit_start_outcome (classes : List ClassFile.Class) (options : ObligationOptions)
    (c : ClassFile.Class) :
    (visit c (Session.start classes options)).1 =
      classOutcome ⟨Audit.factsAmong [c], Obligation.resolve (.ofClasses classes) options⟩ c := by
  let truth : Truth := ⟨Audit.factsAmong [c], Obligation.resolve (.ofClasses classes) options⟩
  have hsettles : Settles (Audit.runTruth options [c] []) c :=
    Audit.settles_runTruth options (by simp) (List.mem_singleton_self c)
  obtain ⟨t, ht⟩ : ∃ t : Tracked truth, t.session = Session.start classes options :=
    Tracked.exists_start classes options rfl
  obtain ⟨u, hu, -⟩ := visit_eq t (show Settles truth c from hsettles)
  rw [← ht, hu]

variable {classes classes' : List ClassFile.Class}

/-- Classes with further ranges have the same findings, which are raised. -/
theorem visit_start_raised (hR : ∀ {table table'}, R table table' → table ⊆ table')
    (options : ObligationOptions) (hclasses : List.Forall₂ (Class.Retabled R) classes classes')
    (hc : c.Retabled R c') :
    List.Forall₂ Finding.Raised (visit c (Session.start classes options)).1.1
        (visit c' (Session.start classes' options)).1.1 ∧
      (visit c (Session.start classes options)).1.2 =
        (visit c' (Session.start classes' options)).1.2 := by
  have hbodies : classes.map Class.withoutBodies = classes'.map Class.withoutBodies := by
    rw [← List.forall₂_eq_eq_eq, List.forall₂_map_left_iff, List.forall₂_map_right_iff]
    exact hclasses.imp fun _ _ h => h.withoutBodies_eq
  rw [visit_start_outcome, visit_start_outcome]
  exact classOutcome_raised ⟨within_factsAmong hR hc,
    Obligation.resolve_ofClasses_of_withoutBodies hbodies options, ranked_resolve _ _⟩ hc

/-- A session that has kept no facts yet answers with those about the method itself. -/
theorem factsOf_start (classes : List ClassFile.Class) (options : ObligationOptions)
    (c : ClassFile.Class) (m : Method) :
    (Session.factsOf c m (Session.start classes options)).1 = .ofMethod m :=
  rfl

/-- What exception tables do, for all classes of a session at once: in another order they leave the
findings of a visit as they are, with further entries they raise priorities by two at most, and the
handler of a position is the earliest of the narrowest ranges around it, if there is one. -/
theorem tables_act_through_width (classes classes' : List ClassFile.Class)
    (options : ObligationOptions) (c c' : ClassFile.Class) :
    (List.Forall₂ (Class.Retabled List.Perm) classes classes' → c.Retabled List.Perm c' →
      (visit c (Session.start classes options)).1 =
        (visit c' (Session.start classes' options)).1) ∧
    (List.Forall₂ (Class.Retabled List.Sublist) classes classes' → c.Retabled List.Sublist c' →
      List.Forall₂ Finding.Raised (visit c (Session.start classes options)).1.1
          (visit c' (Session.start classes' options)).1.1 ∧
        (visit c (Session.start classes options)).1.2 =
          (visit c' (Session.start classes' options)).1.2) ∧
    ∀ (m : Method) (code : Code), m.code = some code → code.instructions ≠ [] → ∀ pc,
      (∀ r, (Session.factsOf c m (Session.start classes options)).1.narrowestHandler pc = some r ↔
        ExceptionRange.EarliestNarrowest code.exceptionTable pc r) ∧
      ((Session.factsOf c m (Session.start classes options)).1.narrowestHandler pc = none ↔
        ∀ r ∈ code.exceptionTable, ¬ (r.startPc ≤ pc ∧ pc < r.endPc)) := by
  refine ⟨fun hclasses hc => ?_, fun hclasses hc => ?_, fun m code hcode hne pc => ?_⟩
  · -- a reordered table has the entries of the other and no more
    obtain ⟨hup, hread⟩ := visit_start_raised List.Perm.subset options hclasses hc
    obtain ⟨hdown, -⟩ := visit_start_raised (fun h => h.symm.subset) options
      (List.Forall₂.flip (hclasses.imp fun _ _ h => h.flip)) hc.flip
    refine Prod.ext ?_ hread
    rw [← List.forall₂_eq_eq_eq]
    exact List.Forall₂.mp (fun _ _ h h' => h.antisymm h') hup hdown.flip
  · exact visit_start_raised List.Sublist.subset options hclasses hc
  · have hbody : m.hasBody = true := by simpa [Method.hasBody, Method.instructions, hcode] using hne
    rw [factsOf_start, ofMethod_eq hcode hbody]
    exact ⟨fun r => ExceptionRange.narrowest_eq_some_iff, ExceptionRange.narrowest_eq_none_iff⟩

/-- The class that drops the result of `trim`, with a table of its own. -/
def trimGuarded (table : List ExceptionRange) : ClassFile.Class :=
  { trimDropped with
    methods := trimDropped.methods.map fun m =>
      { m with code := m.code.map fun code => { code with exceptionTable := table } } }

/-- What `trimGuarded` reports in a session of its own. -/
def trimFindings (table : List ExceptionRange) : List Finding :=
  (visit (trimGuarded table) (Session.start [trimGuarded table] {})).1.1

/-- A range of two bytes counts before and behind a wider one and one that holds nothing; one of a
single byte that is inserted raises the finding; and the earlier of two equal ranges is found. -/
theorem tables_act_through_width_trimGuarded :
    trimFindings [⟨0, 4, 9, []⟩, ⟨2, 4, 9, []⟩, ⟨4, 3, 9, []⟩] =
        trimFindings [⟨4, 3, 9, []⟩, ⟨2, 4, 9, []⟩, ⟨0, 4, 9, []⟩] ∧
      List.Forall₂ Finding.Raised (trimFindings [⟨2, 4, 9, []⟩])
        (trimFindings [⟨4, 3, 9, []⟩, ⟨2, 4, 9, []⟩, ⟨3, 4, 9, []⟩]) ∧
      (trimFindings [⟨2, 4, 9, []⟩]).map (·.priority) = [2] ∧
      (trimFindings [⟨4, 3, 9, []⟩, ⟨2, 4, 9, []⟩, ⟨3, 4, 9, []⟩]).map (·.priority) = [3] ∧
      ∃ m ∈ (trimGuarded [⟨0, 4, 9, []⟩, ⟨2, 4, 9, []⟩, ⟨3, 5, 8, []⟩]).methods,
        (Session.factsOf trimDropped m (Session.start [] {})).1.narrowestHandler 3 =
          some ⟨2, 4, 9, []⟩ := by
  have hretabled : ∀ {R : List ExceptionRange → List ExceptionRange → Prop} {table table'},
      R table table' → (trimGuarded table).Retabled R (trimGuarded table') := fun h =>
    ⟨rfl, .cons ⟨rfl, .some ⟨rfl, h⟩⟩ .nil⟩
  refine ⟨?_, ?_, by decide +kernel, by decide +kernel, ?_⟩
  · have hperm : [⟨0, 4, 9, []⟩, ⟨2, 4, 9, []⟩, ⟨4, 3, 9, []⟩].Perm
        [(⟨4, 3, 9, []⟩ : ExceptionRange), ⟨2, 4, 9, []⟩, ⟨0, 4, 9, []⟩] := by decide
    exact congrArg Prod.fst ((tables_act_through_width _ _ {} _ _).1
      (.cons (hretabled hperm) .nil) (hretabled hperm))
  · have hsublist : [⟨2, 4, 9, []⟩].Sublist
        [(⟨4, 3, 9, []⟩ : ExceptionRange), ⟨2, 4, 9, []⟩, ⟨3, 4, 9, []⟩] := by decide
    exact ((tables_act_through_width _ _ {} _ _).2.1
      (.cons (hretabled hsublist) .nil) (hretabled hsublist)).1
  · refine ⟨_, List.mem_cons_self, ?_⟩
    refine (((tables_act_through_width [] [] {} trimDropped trimDropped).2.2 _ _ rfl ?_ 3).1
      _).mpr ⟨[⟨0, 4, 9, []⟩], [⟨3, 5, 8, []⟩], rfl, ?_⟩
    · exact List.cons_ne_nil _ _
    · decide

end ReturnCheck

end ReturnAudit
