import ReturnAudit.Audit
import ReturnAudit.Proofs.ReturnCheck.Findings

/-!
# What the detectors of an audit find

The tasks of an audit, one for each class, share a session. When the classes have distinct names,
what is true of their methods is settled before any task runs, so each task has one outcome whatever
the other tasks have asked the session for.
-/

namespace ReturnAudit.Audit

open ReturnCheck

/-- The facts that stand under a reference: those about the first scanned method with the reference
in the class of its owner. -/
def factsAmong (app : List ClassFile.Class) (ref : MethodRef) : MethodFacts :=
  ((app.find? fun c => c.name = ref.owner).bind fun c =>
    c.methods.find? fun m => isScanned m && MethodRef.declared c m = ref).elim ⟨.empty, []⟩
      MethodFacts.ofMethod

/-- What holds throughout a run over some classes. -/
def runTruth (options : ObligationOptions) (app aux : List ClassFile.Class) : Truth :=
  ⟨factsAmong app, Obligation.resolve (.ofClasses (app ++ aux)) options⟩

/-- What holds of a run settles each of its classes. -/
theorem settles_runTruth (options : ObligationOptions) {app aux : List ClassFile.Class}
    (happ : (app.map (·.name)).Nodup) {c : ClassFile.Class} (hc : c ∈ app) :
    Settles (runTruth options app aux) c := by
  intro done m rest hmethods hscan
  have hclass : (app.find? fun c' => c'.name = (MethodRef.declared c m).owner) = some c :=
    find?_key happ hc
  by_cases hdone : ∃ m' ∈ done, isScanned m' = true ∧ MethodRef.declared c m' = .declared c m
  · exact Or.inr hdone
  · left
    have hnone : (done.find? fun m' =>
        isScanned m' && MethodRef.declared c m' = .declared c m) = none := by
      refine List.find?_eq_none.mpr ?_
      intro m' hm' heq
      rw [Bool.and_eq_true, decide_eq_true_eq] at heq
      exact hdone ⟨m', hm', heq⟩
    simp only [runTruth, factsAmong, hclass, Option.bind_some, hmethods, List.find?_append, hnone,
      Option.none_or, List.find?_cons, hscan, decide_true, Bool.and_self, Option.elim_some]

/-- Every chosen detector is the one that looks for ignored results. -/
theorem eq_returnCheck_of_choose {wanted : List Bytes} {detectors : List Detector}
    (h : Detector.choose wanted = .ok detectors) : ∀ d ∈ detectors, d = .returnCheck := by
  unfold Detector.choose at h
  generalize (if wanted.isEmpty then Detector.names else wanted) = names at h
  induction names generalizing detectors with
  | nil =>
    cases h
    simp
  | cons name names ih =>
    rw [List.mapM_cons] at h
    obtain ⟨d, hd, h⟩ := of_bind h
    obtain ⟨ds, hds, h⟩ := of_bind h
    cases h
    have hreg : d ∈ Detector.registered := by
      unfold Detector.named at hd
      split at hd
      · cases hd
        exact List.mem_of_find?_eq_some ‹_›
      · cases hd
    intro d' hd'
    rcases List.mem_cons.mp hd' with rfl | hd'
    · exact List.mem_singleton.mp hreg
    · exact ih hds d' hd'

/-- The chosen detectors, unless something keeps the audit from running them. -/
def detectorsToRun (options : AuditOptions) (canceled noClasses : Bool) :
    Except AuditError (List Detector) :=
  if noClasses then .error .noClasses
  else
    match Detector.choose options.detectors, (Checker.compileRules 0 options.exclude).2 with
    | .error cause, _ => .error (.detectors cause)
    | .ok _, some cause => .error (.suppressions cause)
    | .ok detectors, none => if canceled then .error .canceled else .ok detectors

/-- The detectors run when there is a class, they can be chosen, the rules can be used and the run
was not cancelled. -/
theorem detectorsToRun_eq_ok_iff {options : AuditOptions} {canceled noClasses : Bool}
    {detectors : List Detector} :
    detectorsToRun options canceled noClasses = .ok detectors ↔
      noClasses = false ∧ Detector.choose options.detectors = .ok detectors ∧
        (Checker.compileRules 0 options.exclude).2 = none ∧ canceled = false := by
  unfold detectorsToRun
  cases noClasses with
  | true => simp
  | false =>
    cases Detector.choose options.detectors with
    | error cause => simp
    | ok chosen =>
      cases (Checker.compileRules 0 options.exclude).2 with
      | some cause => simp
      | none => cases canceled <;> simp

/-- A run fails before its detectors run, or it sums up what they find. -/
theorem runWith_eq (found : List Detector → List Finding × Nat) (options : AuditOptions)
    (canceled : Bool) (app : List ClassFile.Class) :
    runWith found options canceled app =
      (detectorsToRun options canceled app.isEmpty).map fun detectors =>
        summarize options.minPriority (Checker.load {} app options.exclude).1 app
          (found detectors).1 (found detectors).2 := by
  have hfault : (Checker.load {} app options.exclude).2 =
      (Checker.compileRules 0 options.exclude).2 := rfl
  unfold runWith detectorsToRun
  cases app.isEmpty with
  | true => rfl
  | false =>
    cases Detector.choose options.detectors with
    | error cause => rfl
    | ok detectors =>
      simp only [hfault]
      cases (Checker.compileRules 0 options.exclude).2 with
      | some cause => rfl
      | none => cases canceled <;> rfl

/-- Only one detector can run. -/
theorem eq_returnCheck_of_detectorsToRun {options : AuditOptions} {canceled noClasses : Bool}
    {detectors : List Detector} (h : detectorsToRun options canceled noClasses = .ok detectors) :
    ∀ d ∈ detectors, d = .returnCheck :=
  eq_returnCheck_of_choose (detectorsToRun_eq_ok_iff.mp h).2.1

/-- What the task of a class finds when every detector looks for ignored results. -/
def taskOutcome (truth : Truth) (detectors : List Detector) (c : ClassFile.Class) :
    List Finding × Nat :=
  (detectors.flatMap fun _ => (classOutcome truth c).1,
    (detectors.map fun _ => (classOutcome truth c).2).foldr (· + ·) 0)

/-- The findings of a method are in its class. -/
theorem className_of_mem_taskOutcome {truth : Truth} {detectors : List Detector}
    {c : ClassFile.Class} {f : Finding} (hf : f ∈ (taskOutcome truth detectors c).1) :
    f.className = c.name := by
  obtain ⟨_, _, hf⟩ := List.mem_flatMap.mp hf
  obtain ⟨m, _, hf⟩ := List.mem_flatMap.mp hf
  unfold methodOutcome at hf
  split at hf
  · split at hf
    · cases hf
    · obtain ⟨d, _, hd⟩ := List.mem_filterMap.mp hf
      obtain ⟨call, _, hfound⟩ := Option.bind_eq_some_iff.mp hd
      split at hfound
      · cases hfound
        rfl
      · cases hfound
  · cases hf

/-- A task has its outcome in every tracked session. -/
theorem visitClass_eq {truth : Truth} (t : Tracked truth) {detectors : List Detector}
    (hd : ∀ d ∈ detectors, d = .returnCheck) {c : ClassFile.Class} (h : Settles truth c) :
    ∃ u : Tracked truth,
      visitClass detectors c t.session = (taskOutcome truth detectors c, u.session) ∧
        t.Later u := by
  have hdetectors : ∀ d ∈ detectors, ∀ v : Tracked truth, ∃ w : Tracked truth,
      d.visit c v.session = (classOutcome truth c, w.session) ∧ v.Later w := by
    intro d hmem v
    rw [hd d hmem]
    exact ReturnCheck.visit_eq v h
  obtain ⟨u, hu, htu⟩ := Tracked.mapM_eq_of_forall _ detectors hdetectors t
  refine ⟨u, ?_, htu⟩
  rw [visitClass, run_bind hu]
  simp only [taskOutcome, List.flatMap_map, List.map_map]
  rfl

end ReturnAudit.Audit
