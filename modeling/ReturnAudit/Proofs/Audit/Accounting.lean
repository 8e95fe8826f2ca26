import ReturnAudit.Assembly.Encode
import ReturnAudit.Command.Run
import ReturnAudit.Proofs.Audit.Summary

/-!
# The accounts of an audit

Every emitted finding is counted once: as too low, as suppressed or as reported. The findings of the
result are the emitted ones of sufficient priority in their order, and findings in the same place
keep the order in which they were emitted. The text that the command writes has one record for each
reported finding, so it is empty exactly when the exit status tells that there is none.
-/

namespace ReturnAudit

/-- A finding as it is emitted: without a hash and without a mark. -/
def Finding.unmarked (f : Finding) : Finding :=
  { f with instanceHash := [], suppressed := false, suppressReason := [] }

namespace Audit

/-- How the result of an audit accounts for the emitted findings. -/
structure Accounts (minPriority : Int) (emitted : List Finding) (r : AuditResult) : Prop where
  /-- Every emitted finding is counted once. -/
  total : r.stats.filtered + r.stats.suppressed + r.stats.findings = emitted.length
  /-- Each emitted finding of sufficient priority is in the result, and nothing else is. -/
  kept : (r.findings.map Finding.unmarked).Perm
    ((emitted.filter fun f => minPriority ≤ f.priority).map Finding.unmarked)
  /-- No finding stands behind one that it precedes. -/
  ordered : r.findings.Pairwise fun f g => ¬Finding.Precedes g f
  /-- Findings in the same place stand as they were emitted. -/
  ties : ∀ f, (r.findings.filter fun g => Finding.SamePlace f g).map Finding.unmarked =
    (emitted.filter fun g => minPriority ≤ g.priority ∧ Finding.SamePlace f g).map Finding.unmarked
  /-- The counter of reported findings. -/
  findings : r.stats.findings = r.reported.length
  /-- The counter of suppressed findings counts the others. -/
  suppressed : r.stats.suppressed = r.findings.length - r.reported.length

/-- Marking a finding as suppressed changes nothing else in it. -/
theorem unmarked_annotate (checker : Checker) (f : Finding) :
    (annotate checker f).unmarked = f.unmarked := by
  rw [annotate_eq]
  rfl

section

variable (minPriority : Int) (checker : Checker) (emitted : List Finding)

/-- Apart from their marks, the kept findings are the emitted ones that are not too low, in
order. -/
theorem map_unmarked_keptFindings :
    (keptFindings minPriority checker emitted).map Finding.unmarked =
      ((Finding.sort emitted).filter fun f => minPriority ≤ f.priority).map Finding.unmarked := by
  rw [keptFindings, List.map_map]
  exact List.map_congr_left fun f _ => unmarked_annotate checker f

/-- No kept finding comes before one that precedes it. -/
theorem pairwise_keptFindings :
    (keptFindings minPriority checker emitted).Pairwise fun f g => ¬Finding.Precedes g f := by
  have hsorted : (Finding.sort emitted).Pairwise fun f g => Finding.le f g = true :=
    List.pairwise_mergeSort Finding.le_trans Finding.le_total emitted
  refine List.Pairwise.map _ ?_ (hsorted.filter _)
  intro f g hle
  rwa [← Finding.le_iff_not_precedes, le_annotate]

/-- Sorting and marking leave findings in the same place as they were emitted. -/
theorem filter_samePlace_keptFindings (f : Finding) :
    ((keptFindings minPriority checker emitted).filter fun g => Finding.SamePlace f g).map
        Finding.unmarked =
      (emitted.filter fun g => minPriority ≤ g.priority ∧ Finding.SamePlace f g).map
        Finding.unmarked := by
  have hplace : (fun g => decide (Finding.SamePlace f g)) ∘ annotate checker =
      tied Finding.le f := by
    funext g
    simp only [Function.comp_apply, samePlace_annotate, Finding.tied_eq_samePlace]
  have hstable : (Finding.sort emitted).filter (tied Finding.le f) =
      emitted.filter (tied Finding.le f) :=
    filter_tied_mergeSort Finding.le_trans Finding.le_total f emitted
  rw [keptFindings, List.filter_map, hplace, List.filter_comm, hstable, List.filter_filter,
    List.map_map, Finding.tied_eq_samePlace]
  simp only [Bool.decide_and]
  exact List.map_congr_left fun g _ => unmarked_annotate checker g

/-- A summary accounts for all emitted findings. -/
theorem accounts_summarize (app : List ClassFile.Class) (scanned : Nat) :
    Accounts minPriority emitted (summarize minPriority checker app emitted scanned) where
  total := stats_total_summarize minPriority checker app emitted scanned
  kept := by
    rw [findings_summarize, map_unmarked_keptFindings]
    exact ((List.mergeSort_perm emitted Finding.le).filter _).map _
  ordered := by
    rw [findings_summarize]
    exact pairwise_keptFindings minPriority checker emitted
  ties := by
    rw [findings_summarize]
    exact filter_samePlace_keptFindings minPriority checker emitted
  findings := stats_findings_summarize minPriority checker app emitted scanned
  suppressed := by
    rw [stats_suppressed_summarize, AuditResult.reported, ← List.countP_eq_length_filter,
      List.length_eq_countP_add_countP fun f : Finding => f.suppressed]
    simp only [Bool.not_eq_true, Bool.decide_eq_false]
    omega

end

/-- The text without suppressed findings has one record for each reported finding, provided that the
counter agrees. -/
theorem text_eq_records {style : ReportStyle} {r : AuditResult}
    (hshow : style.showSuppressed = false) (hcount : r.stats.findings = r.reported.length) :
    Report.text style r = (r.reported.map (Report.line style)).flatten := by
  simp only [Report.text, hshow, Bool.not_false, Bool.and_true, decide_eq_true_eq, Bool.false_or,
    hcount, Int.natCast_eq_zero, List.flatMap_def, AuditResult.reported]
  split
  · next hnone => rw [List.length_eq_zero_iff.mp hnone]; rfl
  · rfl

/-- A finding never makes an empty line. -/
theorem line_ne_nil (style : ReportStyle) (f : Finding) : Report.line style f ≠ [] := by
  unfold Report.line
  exact List.append_ne_nil_of_right_ne_nil _ (by decide)

/-- Nothing is written exactly when there is nothing to write about. -/
theorem flatten_records_eq_nil_iff (style : ReportStyle) (findings : List Finding) :
    (findings.map (Report.line style)).flatten = [] ↔ findings = [] := by
  cases findings with
  | nil => exact iff_of_true rfl rfl
  | cons f findings =>
    refine iff_of_false ?_ (List.cons_ne_nil f findings)
    rw [List.map_cons, List.flatten_cons]
    exact List.append_ne_nil_of_left_ne_nil (line_ne_nil style f) _

end Audit

namespace Command

/-- A command that ends with an audit has run this audit. -/
theorem audit_of_perform {w : Workspace} {arguments : List Bytes} {o : Options} {r : AuditResult}
    (h : perform w arguments = .ok (.audited o r)) : audit w o = .ok r := by
  unfold perform at h
  split at h
  · -- a request of a shell is never answered by an audit
    split at h
    · cases h
    · cases h
  · obtain ⟨o', -, h⟩ := of_bind h
    split at h
    · cases h
    · split at h
      · cases h
      · obtain ⟨r', haudit, h⟩ := of_bind h
        cases h
        exact haudit

/-- A command with operands and no request for help, the version or completions ends with its
audit. -/
theorem perform_eq_audited {w : Workspace} {arguments : List Bytes} {o : Options} {r : AuditResult}
    (hrequest : CompletionRequest.ofArguments? arguments = none)
    (hoptions : Options.parse arguments = .ok o) (hhelp : o.help = false)
    (hversion : o.version = false) (haudit : audit w o = .ok r) :
    perform w arguments = .ok (.audited o r) := by
  simp only [perform, hrequest, hoptions]
  change (if o.help then _ else _) = _
  rw [hhelp, hversion, haudit]
  rfl

/-- An audit runs over loaded classes under some options and is not cancelled. -/
theorem exists_run_of_audit {w : Workspace} {o : Options} {r : AuditResult}
    (h : audit w o = .ok r) : ∃ options app aux, Audit.run options false app aux = .ok r := by
  obtain ⟨c, -, h⟩ := of_bind h
  obtain ⟨app, -, h⟩ := of_bind h
  obtain ⟨aux, -, h⟩ := of_bind h
  exact ⟨_, _, _, of_mapError h⟩

end Command

/-- A class whose three methods drop a result: one where it matters little, one inside of a small
protected range, and one inside of such a range where findings are suppressed. -/
def threeDrops : Assembly.Class :=
  let drop : List Bytes :=
    ["invokestatic java.lang.String.trim()Ljava/lang/String;", "pop", "return"]
  { name := "a.B"
    methods := [
      { name := "low", descriptor := "()V", code := drop },
      { name := "kept", descriptor := "()V", code := drop, handlers := [⟨3, 4, 4, []⟩] },
      { name := "hidden", descriptor := "()V", code := drop, handlers := [⟨3, 4, 4, []⟩],
        annotations := [{ type := "edu.umd.cs.findbugs.annotations.SuppressFBWarnings" }] }] }

/-- A directory with nothing but the class file. -/
def threeDropsFile : Workspace :=
  ⟨[], [], ⟨[([Bytes.ofString "B.class"], (Assembly.encode threeDrops).toOption)]⟩⟩

end ReturnAudit
