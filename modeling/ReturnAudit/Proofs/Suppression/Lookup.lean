import ReturnAudit.Suppression.Checker
import ReturnAudit.Proofs.Keyed

/-!
# Looking marks up

A mark covers findings of its own class only. So what suppresses a finding is decided by the marks
of one class and by the rules, and the order in which classes were loaded does not matter as long as
their names are distinct.
-/

namespace ReturnAudit

namespace SuppressionMark

/-- The mark that covers a finding is looked up in the class of the finding. -/
theorem find?_covers (marks : List SuppressionMark) (f : Finding) :
    (marks.find? fun mark => mark.covers f) =
      (marks.filter fun mark => mark.className = f.className).find? fun mark => mark.covers f := by
  rw [List.find?_filter]
  congr 1
  funext mark
  by_cases h : f.className = mark.className
  · simp [h]
  · simp [covers, h]

/-- The mark that annotations give carries the name of the class they stand in. -/
theorem className_of_ofAnnotations? {className method : Bytes}
    {annotations : List ClassFile.Annotation} {mark : SuppressionMark}
    (h : ofAnnotations? className method annotations = some mark) : mark.className = className := by
  obtain ⟨a, _, rfl⟩ := Option.map_eq_some_iff.mp h
  rfl

/-- The marks of a class carry its name. -/
theorem className_of_mem_ofClass {c : ClassFile.Class} {mark : SuppressionMark}
    (h : mark ∈ ofClass c) : mark.className = c.name := by
  rcases List.mem_append.mp h with h | h
  · exact className_of_ofAnnotations? (Option.mem_toList.mp h)
  · obtain ⟨m, _, hm⟩ := List.mem_filterMap.mp h
    exact className_of_ofAnnotations? hm

end SuppressionMark

namespace Checker

/-- What suppresses a finding does not depend on the order of the loaded classes. -/
theorem reason?_load_perm {classes classes' : List ClassFile.Class} (hp : classes'.Perm classes)
    (h : (classes.map (·.name)).Nodup) (rules : List Rule) (f : Finding) :
    (load {} classes' rules).1.reason? f = (load {} classes rules).1.reason? f := by
  have hmarks : ((classes'.flatMap SuppressionMark.ofClass).find? fun mark => mark.covers f) =
      (classes.flatMap SuppressionMark.ofClass).find? fun mark => mark.covers f := by
    rw [SuppressionMark.find?_covers, filter_flatMap_key_perm h hp
      (fun c mark => SuppressionMark.className_of_mem_ofClass), ← SuppressionMark.find?_covers]
  simp only [load]
  obtain ⟨compiled, fault⟩ := compileRules 0 rules
  cases fault with
  | none =>
    unfold reason?
    simp only [Option.isNone_none, ite_true, List.nil_append]
    rw [hmarks]
  | some e => rfl

end Checker

end ReturnAudit
