import Mathlib.Data.List.Flatten
import ReturnAudit.Proofs.Audit.RepeatedNames
import ReturnAudit.Proofs.Audit.Summary
import ReturnAudit.Proofs.Obligation.Widening

/-!
# Audits under wider options

Wider options turn calls that nothing was known of into calls whose result has to be used. Every
finding from before is still emitted, unchanged and in the same place among the others, and what
becomes of a finding after that does not depend on the options for obligations.
-/

namespace ReturnAudit

open ClassFile (Method)

/-- One truth has the same facts as another and every check of it. -/
structure Truth.Extends (truth truth' : Truth) : Prop where
  /-- Methods are described alike. -/
  facts : truth'.facts = truth.facts
  /-- What has to be checked is still checked, as severely as before. -/
  obligation : ∀ ref, (truth.obligation ref).isCheck = true →
    truth'.obligation ref = truth.obligation ref

namespace ReturnCheck

/-- A function that gives every result of another one gives them in the same order. -/
theorem filterMap_sublist_filterMap {α β : Type} {f g : α → Option β}
    (h : ∀ a b, f a = some b → g a = some b) (l : List α) :
    (l.filterMap f).Sublist (l.filterMap g) := by
  induction l with
  | nil => exact .refl []
  | cons a l ih =>
    cases hf : f a with
    | none =>
      rw [List.filterMap_cons_none hf]
      exact ih.trans ((List.sublist_cons_self a l).filterMap g)
    | some b =>
      rw [List.filterMap_cons_some hf, List.filterMap_cons_some (h a b hf)]
      exact ih.cons_cons b

variable {truth truth' : Truth}

/-- A finding under a truth is the same finding under a truth that extends it. -/
theorem findingOf_of_extends (h : truth.Extends truth') {c : ClassFile.Class} {m : Method}
    {d : Discard MethodRef} {f : Finding} (hf : findingOf truth c m d = some f) :
    findingOf truth' c m d = some f := by
  obtain ⟨call, hcall, hfinding⟩ := Option.bind_eq_some_iff.mp hf
  by_cases hcheck : (truth.obligation call).isCheck = true
  · rw [findingOf, hcall, Option.bind_some, h.facts, h.obligation call hcheck]
    exact hfinding
  · rw [if_neg hcheck] at hfinding
    cases hfinding

/-- Which bodies are read does not depend on obligations, so the findings in a method stay. -/
theorem methodOutcome_sublist (h : truth.Extends truth') (c : ClassFile.Class) (m : Method) :
    (methodOutcome truth c m).1.Sublist (methodOutcome truth' c m).1 := by
  rw [methodOutcome, methodOutcome, h.facts]
  split
  · split
    · exact .refl []
    · exact filterMap_sublist_filterMap (fun d f => findingOf_of_extends h) _
  · exact .refl []

/-- The findings in a class stay, in order, under a truth that extends another. -/
theorem classOutcome_sublist (h : truth.Extends truth') (c : ClassFile.Class) :
    (classOutcome truth c).1.Sublist (classOutcome truth' c).1 :=
  List.Sublist.flatMap_right c.methods fun m _ => methodOutcome_sublist h c m

end ReturnCheck

namespace Audit

/-- The findings of all tasks stay, in order, under a truth that extends another. -/
theorem tasksOutcome_sublist {truth truth' : Truth} (h : truth.Extends truth')
    (detectors : List Detector) (app : List ClassFile.Class) :
    (tasksOutcome truth detectors app).1.Sublist (tasksOutcome truth' detectors app).1 :=
  List.Sublist.flatMap_right app fun c _ =>
    List.Sublist.flatMap_right detectors fun _ _ => ReturnCheck.classOutcome_sublist h c

variable {options wider : ObligationOptions}

/-- Under wider options the truth about a class path extends the former one. -/
theorem visitTruth_extends (h : options.Widens wider) (app aux : List ClassFile.Class) :
    (visitTruth options app aux).Extends (visitTruth wider app aux) where
  facts := rfl
  obligation := by
    intro ref hcheck
    rcases Obligation.resolve_of_widens h (.ofClasses (app ++ aux)) ref with hsame | ⟨hunset, -⟩
    · exact hsame
    · have hnone : (visitTruth options app aux).obligation ref = .unset := hunset
      rw [hnone] at hcheck
      cases hcheck

/-- What is emitted under some options is emitted under wider ones, in the same order. -/
theorem detect_sublist (h : options.Widens wider) {detectors : List Detector}
    (hd : ∀ d ∈ detectors, d = .returnCheck) (hne : detectors ≠ [])
    (app aux : List ClassFile.Class) :
    (detect options detectors app aux).1.Sublist (detect wider detectors app aux).1 := by
  rw [detect_eq_tasksOutcome hd hne, detect_eq_tasksOutcome hd hne]
  exact tasksOutcome_sublist (visitTruth_extends h app aux) detectors app

/-- Sorting, filtering and marking keep findings among further ones. -/
theorem keptFindings_sublist {emitted emitted' : List Finding} (h : emitted.Sublist emitted')
    (minPriority : Int) (checker : Checker) :
    (keptFindings minPriority checker emitted).Sublist
      (keptFindings minPriority checker emitted') :=
  ((sublist_mergeSort_mergeSort Finding.le_trans Finding.le_total h).filter _).map _

/-- A class with one method, which drops the results of `trim` and of `next`. -/
def twoDropped : ClassFile.Class :=
  { ReturnCheck.trimDropped with
    methods := [{
      access := ClassFile.accPublic, name := "run", descriptor := "()V", annotations := [],
      code := some {
        maxStack := 1, maxLocals := 1, bytes := [0xb6, 0, 1, 0x57, 0xb8, 0, 2, 0x57],
        instructions := [
          ⟨0, .invokevirtual, 3, 1,
            some ⟨"java/lang/String", "trim", "()Ljava/lang/String;", false⟩, none⟩,
          ⟨3, .pop, 1, 0, none, none⟩,
          ⟨4, .invokestatic, 3, 2, some ⟨"a/Counter", "next", "()I", false⟩, none⟩,
          ⟨7, .pop, 1, 0, none, none⟩],
        exceptionTable := [], lines := #[] } }] }

/-- The entry for `next`. -/
def nextEntry : CatalogEntry where
  owner := "a.Counter"
  name := "next"

end Audit

end ReturnAudit
