import ReturnAudit.Proofs.Audit.Outcome
import ReturnAudit.Proofs.Report.FindingOrder

/-!
# The result of an audit

A successful audit is a summary of what its detectors emit. Filtering, marking and sorting do not
get into each other's way: the findings of the result are the emitted ones, sorted, without those
below the least priority, and then marked one by one.
-/

namespace ReturnAudit.Audit

/-- A finding with its hash is marked by the reason that the checker gives for it. -/
theorem annotate_eq (checker : Checker) (f : Finding) :
    annotate checker f =
      let hashed := { f with instanceHash := f.computeHash }
      { hashed with
        suppressed := (checker.reason? hashed).isSome
        suppressReason := (checker.reason? hashed).getD [] } := by
  unfold annotate
  dsimp only
  split
  · next hreason => simp only [hreason, Option.isSome_some, Option.getD_some]
  · next hreason => simp only [hreason, Option.isSome_none, Option.getD_none]

/-- Marking changes nothing that findings are ordered by. -/
theorem le_annotate (checker : Checker) (f g : Finding) :
    Finding.le (annotate checker f) (annotate checker g) = Finding.le f g := by
  rw [annotate_eq, annotate_eq]
  rfl

/-- Marking a finding as suppressed keeps its priority. -/
theorem priority_annotate (checker : Checker) (f : Finding) :
    (annotate checker f).priority = f.priority := by
  rw [annotate_eq]

/-- Marking a finding as suppressed keeps its place. -/
theorem samePlace_annotate (checker : Checker) (f g : Finding) :
    Finding.SamePlace f (annotate checker g) ↔ Finding.SamePlace f g := by
  rw [annotate_eq]
  rfl

/-- What is emitted, sorted, without what is below a priority, and marked. -/
def keptFindings (minPriority : Int) (checker : Checker) (emitted : List Finding) : List Finding :=
  ((Finding.sort emitted).filter fun f => minPriority ≤ f.priority).map (annotate checker)

section

variable (minPriority : Int) (checker : Checker) (app : List ClassFile.Class)
  (emitted : List Finding) (scanned : Nat)

/-- The findings of a summary are the kept ones. -/
theorem findings_summarize :
    (summarize minPriority checker app emitted scanned).findings =
      keptFindings minPriority checker emitted := by
  have hnot : (not ∘ fun f : Finding => decide (f.priority < minPriority)) =
      fun f => decide (minPriority ≤ f.priority) := by
    funext f
    simp only [Function.comp_apply, ← decide_not, Int.not_lt]
  simp only [summarize, List.partition_eq_filter_filter, hnot, keptFindings, Finding.sort]
  rw [← mergeSort_filter Finding.le_trans Finding.le_total]
  exact (List.map_mergeSort fun f _ g _ => (le_annotate checker f g).symm).symm

/-- What is counted as not suppressed stands in the result. -/
theorem stats_findings_summarize :
    (summarize minPriority checker app emitted scanned).stats.findings =
      (summarize minPriority checker app emitted scanned).reported.length := by
  rw [AuditResult.reported, ← List.countP_eq_length_filter]
  simp only [summarize, Finding.sort, (List.mergeSort_perm _ Finding.le).countP_eq]

/-- What is counted as suppressed is so marked in the result. -/
theorem stats_suppressed_summarize :
    (summarize minPriority checker app emitted scanned).stats.suppressed =
      (summarize minPriority checker app emitted scanned).findings.countP (·.suppressed) := by
  simp only [summarize, Finding.sort, (List.mergeSort_perm _ Finding.le).countP_eq]

/-- Every emitted finding is counted once. -/
theorem stats_total_summarize :
    let stats := (summarize minPriority checker app emitted scanned).stats
    stats.filtered + stats.suppressed + stats.findings = emitted.length := by
  let kept := emitted.filter fun f => !decide (f.priority < minPriority)
  have hsplit : emitted.length =
      (emitted.filter fun f => f.priority < minPriority).length + kept.length :=
    List.length_eq_length_filter_add _
  have hmarked : (kept.map (annotate checker)).length =
      (kept.map (annotate checker)).countP (fun f => f.suppressed) +
        (kept.map (annotate checker)).countP fun f => !f.suppressed := by
    rw [List.length_eq_countP_add_countP fun f : Finding => f.suppressed]
    simp only [Bool.not_eq_true, Bool.decide_eq_false]
  rw [List.length_map] at hmarked
  rw [hsplit, hmarked]
  simp only [summarize, List.partition_eq_filter_filter, Function.comp_def, kept]
  omega

end

section

variable {options : AuditOptions} {canceled : Bool} {app aux : List ClassFile.Class}

/-- An audit sums up what its detectors emit. -/
theorem run_eq_summarize {detectors : List Detector}
    (h : detectorsToRun options canceled app.isEmpty = .ok detectors) :
    run options canceled app aux =
      .ok (summarize options.minPriority (Checker.load {} app options.exclude).1 app
        (detect options.obligations detectors app aux).1
        (detect options.obligations detectors app aux).2) := by
  rw [run, runWith_eq, h]
  rfl

/-- A successful audit sums up what the chosen detectors emit. -/
theorem of_run {r : AuditResult} (h : run options canceled app aux = .ok r) :
    ∃ detectors, detectorsToRun options canceled app.isEmpty = .ok detectors ∧
      r = summarize options.minPriority (Checker.load {} app options.exclude).1 app
        (detect options.obligations detectors app aux).1
        (detect options.obligations detectors app aux).2 := by
  rw [run, runWith_eq] at h
  obtain ⟨detectors, hdetectors, hr⟩ := of_map h
  exact ⟨detectors, hdetectors, hr.symm⟩

end

end ReturnAudit.Audit
