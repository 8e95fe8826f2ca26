import ReturnAudit.Proofs.Audit.Summary
import ReturnAudit.Proofs.ReturnCheck.Exactness
import ReturnAudit.Proofs.Suppression.RuleLists

/-!
# Thresholds and exclusion rules

The least priority and the exclusion rules act on what has been emitted, one finding at a time. A
higher threshold takes findings out of the result and leaves the others as they are. More exclusion
rules take none out: they mark findings that were not marked before.
-/

namespace ReturnAudit.Audit

/-- A finding as fewer rules and as more rules mark it. -/
structure MarkedFurther (before after : Finding) : Prop where
  /-- Nothing but the mark may differ. -/
  same : after = { before with
    suppressed := after.suppressed
    suppressReason := after.suppressReason }
  /-- A finding that was marked stays marked for the same reason. -/
  stays : before.suppressed = true →
    after.suppressed = true ∧ after.suppressReason = before.suppressReason

/-- A checker that gives every reason that another one gives marks further. -/
theorem markedFurther_annotate {checker checker' : Checker}
    (h : ∀ f reason, checker.reason? f = some reason → checker'.reason? f = some reason)
    (f : Finding) : MarkedFurther (annotate checker f) (annotate checker' f) := by
  rw [annotate_eq, annotate_eq]
  refine ⟨rfl, ?_⟩
  intro hmarked
  obtain ⟨reason, hreason⟩ := Option.isSome_iff_exists.mp hmarked
  simp only [hreason, h _ reason hreason, Option.isSome_some, Option.getD_some, and_self]

/-- Checkers that agree on what findings are kept mark the same findings, one by one. -/
theorem forall₂_keptFindings {checker checker' : Checker}
    (h : ∀ f reason, checker.reason? f = some reason → checker'.reason? f = some reason)
    (minPriority : Int) (emitted : List Finding) :
    List.Forall₂ MarkedFurther (keptFindings minPriority checker emitted)
      (keptFindings minPriority checker' emitted) := by
  rw [keptFindings, keptFindings, List.forall₂_map_left_iff, List.forall₂_map_right_iff,
    List.forall₂_same]
  exact fun f _ => markedFurther_annotate h f

/-- A higher threshold keeps those of the kept findings that reach it. -/
theorem keptFindings_of_le {a b : Int} (hab : a ≤ b) (checker : Checker) (emitted : List Finding) :
    keptFindings b checker emitted =
      (keptFindings a checker emitted).filter fun f => b ≤ f.priority := by
  have hpriority : (fun f : Finding => decide (b ≤ f.priority)) ∘ annotate checker =
      fun f => decide (b ≤ f.priority) := by
    funext f
    rw [Function.comp_apply, priority_annotate]
  rw [keptFindings, keptFindings, List.filter_map, hpriority, List.filter_filter]
  congr 1
  refine List.filter_congr fun f _ => ?_
  rw [← Bool.decide_and, decide_eq_decide]
  omega

/-- A class in which a result is dropped outside of any protected range. -/
def droppedInTheOpen : ClassFile.Class where
  major := 52
  minor := 0
  access := ClassFile.accPublic
  name := "a.A"
  super := "java.lang.Object"
  interfaces := []
  fields := []
  annotations := []
  sourceFile := []
  pool := ⟨#[]⟩
  methods := ReturnCheck.trimDropped.methods.map fun m =>
    { m with code := m.code.map fun code => { code with exceptionTable := [] } }

/-- A rule for the class whose finding has a low priority. -/
def openRule : Rule where
  className := "a.A"
  reason := "known"

end ReturnAudit.Audit
