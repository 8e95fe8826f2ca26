import ReturnAudit.Proofs.Audit.OrderIndependence

/-!
# Audits of classes with repeated names

Two classes of an application may have the same name, and a class may declare a reference twice. The
facts about the first scanned method with a reference are then kept for all later ones. So every
audit has the outcome of its classes under these facts, which depend neither on the options nor on
what is resolved.
-/

namespace ReturnAudit.Audit

open ReturnCheck
open ClassFile (Method)

/-- The first scanned method with a reference, in the order in which the classes are visited. -/
def firstScanned? (app : List ClassFile.Class) (ref : MethodRef) : Option Method :=
  app.findSome? fun c =>
    c.methods.find? fun m => isScanned m && MethodRef.declared c m = ref

/-- What holds throughout a run that visits the classes in order. -/
def visitTruth (options : ObligationOptions) (app aux : List ClassFile.Class) : Truth where
  facts := fun ref => (firstScanned? app ref).elim ⟨.empty, []⟩ .ofMethod
  obligation := Obligation.resolve (.ofClasses (app ++ aux)) options

/-- A scanned method is the first with its reference, or one was scanned before it, in an earlier
class or earlier in its own. -/
theorem firstScanned?_eq (done rest : List ClassFile.Class) {c : ClassFile.Class}
    {before after : List Method} {m : Method} (hc : c.methods = before ++ m :: after)
    (hm : isScanned m = true) :
    firstScanned? (done ++ c :: rest) (.declared c m) = some m ∨
      (∃ m' ∈ before, isScanned m' = true ∧ MethodRef.declared c m' = .declared c m) ∨
        ∃ c' ∈ done, ∃ m' ∈ c'.methods,
          isScanned m' = true ∧ MethodRef.declared c' m' = .declared c m := by
  by_cases hdone : ∃ c' ∈ done, ∃ m' ∈ c'.methods,
      isScanned m' = true ∧ MethodRef.declared c' m' = .declared c m
  · exact Or.inr (Or.inr hdone)
  by_cases hbefore : ∃ m' ∈ before, isScanned m' = true ∧
      MethodRef.declared c m' = .declared c m
  · exact Or.inr (Or.inl hbefore)
  left
  have hclasses : done.findSome? (fun c' => c'.methods.find? fun m' =>
      isScanned m' && MethodRef.declared c' m' = .declared c m) = none := by
    refine List.findSome?_eq_none_iff.mpr fun c' hc' => List.find?_eq_none.mpr fun m' hm' heq => ?_
    rw [Bool.and_eq_true, decide_eq_true_eq] at heq
    exact hdone ⟨c', hc', m', hm', heq⟩
  have hmethods : before.find? (fun m' =>
      isScanned m' && MethodRef.declared c m' = .declared c m) = none := by
    refine List.find?_eq_none.mpr fun m' hm' heq => ?_
    rw [Bool.and_eq_true, decide_eq_true_eq] at heq
    exact hbefore ⟨m', hm', heq⟩
  have hfirst : (isScanned m && decide (MethodRef.declared c m = .declared c m)) = true := by
    rw [hm, decide_eq_true rfl, Bool.and_self]
  rw [firstScanned?, List.findSome?_append, hclasses, Option.none_or, List.findSome?_cons, hc,
    List.find?_append, hmethods, Option.none_or, List.find?_cons, hfirst]

/-- There is always a detector to run. -/
theorem ne_nil_of_choose {wanted : List Bytes} {detectors : List Detector}
    (h : Detector.choose wanted = .ok detectors) : detectors ≠ [] := by
  have hnames : (if wanted.isEmpty then Detector.names else wanted) ≠ [] := by
    split
    · simp [Detector.names, Detector.registered, Bytes.sort]
    · next hne => exact fun hnil => hne (by rw [hnil]; rfl)
  unfold Detector.choose at h
  obtain ⟨name, names, hcons⟩ := List.exists_cons_of_ne_nil hnames
  rw [hcons, List.mapM_cons] at h
  obtain ⟨d, -, h⟩ := of_bind h
  obtain ⟨ds, -, h⟩ := of_bind h
  rw [← Except.ok.inj h]
  exact List.cons_ne_nil d ds

section

variable {detectors : List Detector} (hd : ∀ d ∈ detectors, d = .returnCheck)
  (hne : detectors ≠ [])
include hd hne

/-- A task has its outcome wherever the facts about its methods are true or already kept, and keeps
the facts about its scanned methods. -/
theorem visitClass_leaves {truth : Truth} (t : Tracked truth) {c : ClassFile.Class}
    (h : ∀ before m after, c.methods = before ++ m :: after → isScanned m = true →
      truth.facts (.declared c m) = .ofMethod m ∨
        (∃ m' ∈ before, isScanned m' = true ∧ MethodRef.declared c m' = .declared c m) ∨
          t.session.Knows (.declared c m)) :
    ∃ u : Tracked truth,
      visitClass detectors c t.session = (taskOutcome truth detectors c, u.session) ∧ t.Later u ∧
        ∀ m ∈ c.methods, isScanned m = true → u.session.Knows (.declared c m) := by
  obtain ⟨u, hu, htu, hknows⟩ := Tracked.mapM_leaves (f := fun d : Detector => d.visit c)
    (fun _ => classOutcome truth c)
    (fun _ v => ∀ m ∈ c.methods, isScanned m = true → v.session.Knows (.declared c m))
    (fun _ v w hvw hv m hm hs => hvw.knows _ (hv m hm hs)) detectors t <| by
    intro done d rest hsplit v htv _
    rw [hd d (by simp [hsplit])]
    exact visit_leaves v fun before m after hc hs =>
      (h before m after hc hs).imp_right (Or.imp_right (htv.knows _))
  -- without a detector nothing would be scanned and nothing kept
  obtain ⟨d, hmem⟩ := List.exists_mem_of_ne_nil detectors hne
  refine ⟨u, ?_, htu, hknows d hmem⟩
  rw [visitClass, run_bind hu]
  simp only [taskOutcome, List.flatMap_map, List.map_map]
  rfl

/-- An audit emits what its tasks find, whatever names its classes have. -/
theorem detect_eq_tasksOutcome (options : ObligationOptions) (app aux : List ClassFile.Class) :
    detect options detectors app aux =
      tasksOutcome (visitTruth options app aux) detectors app := by
  obtain ⟨t, ht⟩ : ∃ t : Tracked (visitTruth options app aux), t.session = _ :=
    Tracked.exists_start (app ++ aux) options rfl
  -- what the earlier classes scanned is kept, and that answers for every reference met again
  obtain ⟨u, hu, -, -⟩ := Tracked.mapM_leaves (taskOutcome (visitTruth options app aux) detectors)
    (fun c v => ∀ m ∈ c.methods, isScanned m = true → v.session.Knows (.declared c m))
    (fun c v w hvw hv m hm hs => hvw.knows _ (hv m hm hs)) app t <| by
    intro done c rest hsplit v _ hdone
    refine visitClass_leaves hd hne v fun before m after hc hs => ?_
    rcases firstScanned?_eq done rest hc hs with hfirst | hbefore | hearlier
    · left
      simp only [visitTruth, hsplit, hfirst, Option.elim_some]
    · exact Or.inr (Or.inl hbefore)
    · obtain ⟨c', hc', m', hm', hs', heq⟩ := hearlier
      exact Or.inr (Or.inr (heq ▸ hdone c' hc' m' hm' hs'))
  simp only [detect, ← ht, hu, tasksOutcome, List.flatMap_map, List.map_map]
  rfl

end

end ReturnAudit.Audit
