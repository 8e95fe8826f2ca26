import ReturnAudit.Proofs.Steps
import ReturnAudit.Suppression.Checker

/-!
# Lists of rules

Whether a rule can be used depends on its own expressions and not on its position. A list of rules
is read rule by rule, so rules may be added behind a list that can be used. What was suppressed
before is still suppressed then and for the same reason: marks come first, and of the rules the
first that excludes a finding decides.
-/

namespace ReturnAudit

namespace Rule

/-- Whether the three expressions of a rule can be read. -/
structure Readable (r : Rule) : Prop where
  /-- The expression for class names can be read. -/
  className : ∃ e, readExpression r.className = .ok e
  /-- The expression for method names can be read. -/
  method : ∃ e, readExpression r.method = .ok e
  /-- The expression for patterns can be read. -/
  pattern : ∃ e, readExpression r.pattern = .ok e

/-- What can be used at some position has readable expressions. -/
theorem readable_of_compile {r : Rule} {index : Nat} {compiled : Compiled}
    (h : r.compile index = .ok compiled) : r.Readable := by
  obtain ⟨className, hclass, h⟩ := of_bind h
  obtain ⟨method, hmethod, h⟩ := of_bind h
  obtain ⟨pattern, hpattern, -⟩ := of_bind h
  exact ⟨⟨className, of_mapError hclass⟩, ⟨method, of_mapError hmethod⟩,
    ⟨pattern, of_mapError hpattern⟩⟩

/-- A readable rule can be used at every position, and is the same rule there. -/
theorem Readable.exists_compile_eq {r : Rule} (h : r.Readable) :
    ∃ compiled, ∀ index, r.compile index = .ok compiled := by
  obtain ⟨className, hclass⟩ := h.className
  obtain ⟨method, hmethod⟩ := h.method
  obtain ⟨pattern, hpattern⟩ := h.pattern
  refine ⟨⟨className, method, pattern, r.reason⟩, fun index => ?_⟩
  simp only [compile, hclass, hmethod, hpattern]
  rfl

end Rule

namespace Checker

/-- A list of readable rules can be used at every position. -/
theorem exists_compileRules_eq {rules : List Rule} (h : ∀ r ∈ rules, r.Readable) :
    ∃ compiled, ∀ index, compileRules index rules = (compiled, none) := by
  induction rules with
  | nil => exact ⟨[], fun _ => rfl⟩
  | cons r rules ih =>
    obtain ⟨first, hfirst⟩ := (h r List.mem_cons_self).exists_compile_eq
    obtain ⟨others, hothers⟩ := ih fun r' hr' => h r' (List.mem_cons_of_mem r hr')
    refine ⟨first :: others, fun index => ?_⟩
    simp only [compileRules, hfirst, hothers]

/-- A list that can be used starts with a rule that can be used, and the others can be used behind
it. -/
theorem of_compileRules_cons {index : Nat} {r : Rule} {rules : List Rule}
    {compiled : List Rule.Compiled} (h : compileRules index (r :: rules) = (compiled, none)) :
    ∃ first others, r.compile index = .ok first ∧
      compileRules (index + 1) rules = (others, none) ∧ compiled = first :: others := by
  rw [compileRules] at h
  cases hfirst : r.compile index with
  | error e =>
    rw [hfirst] at h
    cases h
  | ok first =>
    cases hothers : compileRules (index + 1) rules with
    | mk others fault =>
      simp only [hfirst, hothers, Prod.mk.injEq] at h
      obtain ⟨rfl, rfl⟩ := h
      exact ⟨first, others, rfl, rfl, rfl⟩

/-- Rules behind a list that can be used are read from their own position on. -/
theorem compileRules_append {index : Nat} {rules : List Rule} {compiled : List Rule.Compiled}
    (h : compileRules index rules = (compiled, none)) (more : List Rule) :
    compileRules index (rules ++ more) =
      (compiled ++ (compileRules (index + rules.length) more).1,
        (compileRules (index + rules.length) more).2) := by
  induction rules generalizing index compiled with
  | nil =>
    cases h
    rfl
  | cons r rules ih =>
    obtain ⟨first, others, hfirst, hothers, rfl⟩ := of_compileRules_cons h
    have hlength : index + 1 + rules.length = index + (r :: rules).length := by
      rw [List.length_cons]
      omega
    simp only [List.cons_append, compileRules, hfirst, ih hothers, hlength]

/-- Loading more readable rules adds rules behind those that are loaded anyway. -/
theorem load_append (c : Checker) (classes : List ClassFile.Class) {rules more : List Rule}
    (hrules : (c.load classes rules).2 = none) (hmore : ∀ r ∈ more, r.Readable) :
    ∃ added, c.load classes (rules ++ more) =
      (⟨(c.load classes rules).1.marks, (c.load classes rules).1.rules ++ added⟩, none) := by
  obtain ⟨added, hadded⟩ := exists_compileRules_eq hmore
  cases hcompiled : compileRules 0 rules with
  | mk compiled fault =>
    have hfault : fault = none := by simpa only [load, hcompiled] using hrules
    subst hfault
    refine ⟨added, ?_⟩
    simp only [load, compileRules_append hcompiled, hcompiled, hadded, List.append_assoc]

/-- Rules behind the loaded ones change no reason that is given already. -/
theorem reason?_of_rules_append {c : Checker} {f : Finding} {reason : Bytes}
    (h : c.reason? f = some reason) (added : List Rule.Compiled) :
    reason? ⟨c.marks, c.rules ++ added⟩ f = some reason := by
  unfold reason? at h ⊢
  cases hmark : c.marks.find? fun mark => mark.covers f with
  | some mark =>
    rw [hmark] at h
    exact h
  | none =>
    rw [hmark] at h
    obtain ⟨rule, hrule, rfl⟩ := Option.map_eq_some_iff.mp h
    simp only [List.find?_append, hrule, Option.some_or, Option.map_some]

end Checker

end ReturnAudit
