import ReturnAudit.Proofs.Audit.Outcome
import ReturnAudit.Proofs.Hierarchy.Locality
import ReturnAudit.Proofs.ReturnCheck.Exactness
import ReturnAudit.Proofs.Report.FindingOrder
import ReturnAudit.Proofs.Suppression.Lookup

/-!
# Audits do not depend on order

The tasks of an audit may run in any order: each files what it finds under the index of its class.
The order of the classes is lost too, since findings are sorted by class and marks are looked up by
class, and of the classes that complete the class path only the first of each name counts.
-/

namespace ReturnAudit.Audit

open ReturnCheck

/-- Runs the task of a class and files its outcome under the index of the class. -/
def runTask (detectors : List Detector) (task : ClassFile.Class × Nat) :
    StateM Session (Nat × List Finding × Nat) := do
  let outcome ← visitClass detectors task.1
  return (task.2, outcome)

/-- Everything that the detectors find when the tasks run in a given order. The findings are
gathered by index, and the read bodies are counted as the tasks end. -/
def detectInOrder (tasks : List (ClassFile.Class × Nat)) (options : ObligationOptions)
    (detectors : List Detector) (app aux : List ClassFile.Class) : List Finding × Nat :=
  let (filed, _) := (tasks.mapM (runTask detectors)) (Session.start (app ++ aux) options)
  ((List.range app.length).flatMap fun index =>
      (filed.find? fun entry => entry.1 = index).elim [] fun entry => entry.2.1,
    (filed.map fun entry => entry.2.2).foldr (· + ·) 0)

/-- The classes of `aux` whose name occurs neither in `app` nor earlier in `aux`. -/
def dropShadowed (app aux : List ClassFile.Class) : List ClassFile.Class :=
  (aux.zipIdx.filter fun (c, index) =>
    c.name ∉ app.map (·.name) ∧ c.name ∉ (aux.take index).map (·.name)).map Prod.fst

/-- What the tasks find, in the order of the classes, and how many bodies they read. -/
def tasksOutcome (truth : Truth) (detectors : List Detector) (app : List ClassFile.Class) :
    List Finding × Nat :=
  (app.flatMap fun c => (taskOutcome truth detectors c).1,
    (app.map fun c => (taskOutcome truth detectors c).2).foldr (· + ·) 0)

section

variable {detectors : List Detector} (hd : ∀ d ∈ detectors, d = .returnCheck)
  {app : List ClassFile.Class} (happ : (app.map (·.name)).Nodup)
  (options : ObligationOptions) (aux : List ClassFile.Class)
include hd happ

/-- Running the tasks in the order of the classes gives what they find. -/
theorem detect_eq : detect options detectors app aux =
    tasksOutcome (runTruth options app aux) detectors app := by
  obtain ⟨t, ht⟩ : ∃ t : Tracked (runTruth options app aux), t.session = _ :=
    Tracked.exists_start (app ++ aux) options rfl
  have htasks : ∀ c ∈ app, ∀ v : Tracked (runTruth options app aux), ∃ w : Tracked _,
      visitClass detectors c v.session = (taskOutcome _ detectors c, w.session) ∧ v.Later w :=
    fun c hc v => visitClass_eq v hd (settles_runTruth options happ hc)
  obtain ⟨u, hu, -⟩ := Tracked.mapM_eq_of_forall _ app htasks t
  simp only [detect, ← ht, hu, tasksOutcome, List.flatMap_map, List.map_map]
  rfl

/-- Running the tasks in any order gives what they find. -/
theorem detectInOrder_eq {tasks : List (ClassFile.Class × Nat)} (ht : tasks.Perm app.zipIdx) :
    detectInOrder tasks options detectors app aux =
      tasksOutcome (runTruth options app aux) detectors app := by
  let entry (task : ClassFile.Class × Nat) : Nat × List Finding × Nat :=
    (task.2, taskOutcome (runTruth options app aux) detectors task.1)
  obtain ⟨t, hstart⟩ : ∃ t : Tracked (runTruth options app aux), t.session = _ :=
    Tracked.exists_start (app ++ aux) options rfl
  -- a task has the same outcome whatever was run before it
  have htasks : ∀ task ∈ tasks, ∀ v : Tracked (runTruth options app aux), ∃ w : Tracked _,
      runTask detectors task v.session = (entry task, w.session) ∧ v.Later w := by
    intro task htask v
    have hc : task.1 ∈ app := List.fst_mem_of_mem_zipIdx (ht.mem_iff.mp htask)
    obtain ⟨w, hw, hvw⟩ := visitClass_eq v hd (settles_runTruth options happ hc)
    exact ⟨w, run_bind hw, hvw⟩
  obtain ⟨u, hu, -⟩ := Tracked.mapM_eq_of_forall entry tasks htasks t
  have hkeys : (app.zipIdx.map entry).map Prod.fst = List.range app.length := by
    rw [List.map_map, List.range_eq_range', ← List.zipIdx_map_snd]
    rfl
  have hnodup : ((app.zipIdx.map entry).map Prod.fst).Nodup := hkeys ▸ List.nodup_range
  -- outcomes are filed by number, so they are looked up in the order of the classes
  have hfiled : (tasks.map entry).Perm (app.zipIdx.map entry) := ht.map entry
  simp only [detectInOrder, ← hstart, hu, ← hkeys, find?_key_perm hnodup hfiled]
  have hclasses : app.zipIdx.map Prod.fst = app := List.zipIdx_map_fst 0 app
  refine Prod.ext ?_ ?_
  · calc ((app.zipIdx.map entry).map Prod.fst).flatMap (fun index =>
          ((app.zipIdx.map entry).find? fun e => e.1 = index).elim [] fun e => e.2.1)
        = (app.zipIdx.map entry).flatMap (fun e => e.2.1) := flatMap_find?_key hnodup _
      _ = (app.zipIdx.map Prod.fst).flatMap
            (fun c => (taskOutcome (runTruth options app aux) detectors c).1) := by
          simp only [List.flatMap_map, entry]
      _ = (tasksOutcome (runTruth options app aux) detectors app).1 := by rw [hclasses]; rfl
  · calc ((tasks.map entry).map fun e => e.2.2).foldr (· + ·) 0
        = ((app.zipIdx.map entry).map fun e => e.2.2).foldr (· + ·) 0 :=
          (hfiled.map _).foldr_eq 0
      _ = ((app.zipIdx.map Prod.fst).map
            (fun c => (taskOutcome (runTruth options app aux) detectors c).2)).foldr (· + ·) 0 := by
          simp only [List.map_map, entry]
          rfl
      _ = (tasksOutcome (runTruth options app aux) detectors app).2 := by rw [hclasses]; rfl

end

/-- What holds throughout a run depends on what is found under each name. -/
theorem runTruth_congr (options : ObligationOptions) {app app' aux aux' : List ClassFile.Class}
    (hp : app'.Perm app) (happ : (app.map (·.name)).Nodup)
    (haux : ∀ name, (app.find? fun c => c.name = name) = none →
      (aux'.find? fun c => c.name = name) = aux.find? fun c => c.name = name) :
    runTruth options app' aux' = runTruth options app aux := by
  have hfind : ∀ name, (app'.find? fun c => c.name = name) = app.find? fun c => c.name = name :=
    find?_key_perm happ hp
  have hall : ∀ name, ((app' ++ aux').find? fun c => c.name = name) =
      (app ++ aux).find? fun c => c.name = name := by
    intro name
    rw [List.find?_append, List.find?_append, hfind]
    cases hname : app.find? fun c => c.name = name with
    | none => rw [haux name hname]
    | some c => rfl
  have hfacts : factsAmong app' = factsAmong app := by
    funext ref
    simp only [factsAmong, hfind]
  simp only [runTruth, hfacts, Obligation.resolve_ofClasses_congr hall]

/-- Marking a finding as suppressed keeps its class. -/
theorem className_annotate (checker : Checker) (f : Finding) :
    (annotate checker f).className = f.className := by
  unfold annotate
  dsimp only
  split <;> rfl

/-- The result of a run does not depend on the order of the classes that the findings come from. -/
theorem summarize_perm {app app' : List ClassFile.Class} (hp : app'.Perm app)
    (happ : (app.map (·.name)).Nodup) {g : ClassFile.Class → List Finding}
    (hg : ∀ c, ∀ f ∈ g c, f.className = c.name) {checker checker' : Checker}
    (hc : ∀ f, checker'.reason? f = checker.reason? f) (minPriority : Int) (scanned : Nat) :
    summarize minPriority checker' app' (app'.flatMap g) scanned =
      summarize minPriority checker app (app.flatMap g) scanned := by
  have hannotate : annotate checker' = annotate checker := by
    funext f
    simp only [annotate, hc]
  -- what becomes of the findings of one class
  let kept (c : ClassFile.Class) : List Finding :=
    ((g c).filter fun f => !decide (f.priority < minPriority)).map (annotate checker)
  have hkept : ∀ classes : List ClassFile.Class,
      (((classes.flatMap g).filter fun f => !decide (f.priority < minPriority)).map
        (annotate checker)) = classes.flatMap kept := by
    intro classes
    rw [List.filter_flatMap, List.map_flatMap]
  have hclass : ∀ c, ∀ f ∈ kept c, f.className = c.name := by
    intro c f hf
    obtain ⟨f', hf', rfl⟩ := List.mem_map.mp hf
    rw [className_annotate, hg c f' (List.mem_of_mem_filter hf')]
  have hfound : (app'.flatMap g).Perm (app.flatMap g) := hp.flatMap_right g
  have hmarked : (app'.flatMap kept).Perm (app.flatMap kept) := hp.flatMap_right kept
  have hmethods : (app'.map fun c => c.methods.length).foldr (· + ·) 0 =
      (app.map fun c => c.methods.length).foldr (· + ·) 0 := (hp.map _).foldr_eq 0
  simp only [summarize, List.partition_eq_filter_filter, hannotate, Function.comp_def, hkept,
    Finding.sort_flatMap_perm happ hp hclass, hp.length_eq, hmethods,
    hmarked.countP_eq, (hfound.filter _).length_eq]

/-- A run does not depend on the order of the classes, and not on how the detectors were run. -/
theorem runWith_congr (options : AuditOptions) (canceled : Bool)
    {app app' aux aux' : List ClassFile.Class} (hp : app'.Perm app)
    (happ : (app.map (·.name)).Nodup)
    (haux : ∀ name, (app.find? fun c => c.name = name) = none →
      (aux'.find? fun c => c.name = name) = aux.find? fun c => c.name = name)
    {found : List Detector → List Finding × Nat}
    (hfound : ∀ detectors, (∀ d ∈ detectors, d = .returnCheck) →
      found detectors = tasksOutcome (runTruth options.obligations app' aux') detectors app') :
    runWith found options canceled app' = run options canceled app aux := by
  rw [run, runWith_eq, runWith_eq, hp.isEmpty_eq]
  cases hdetectors : detectorsToRun options canceled app.isEmpty with
  | error cause => rfl
  | ok detectors =>
    have hd := eq_returnCheck_of_detectorsToRun hdetectors
    have hscanned : (tasksOutcome (runTruth options.obligations app aux) detectors app').2 =
        (tasksOutcome (runTruth options.obligations app aux) detectors app).2 :=
      (hp.map _).foldr_eq 0
    simp only [Except.map, hfound detectors hd, detect_eq hd happ,
      runTruth_congr options.obligations hp happ haux, hscanned]
    exact congrArg Except.ok (summarize_perm hp happ (fun c f => className_of_mem_taskOutcome)
      (Checker.reason?_load_perm hp happ options.exclude) options.minPriority _)

/-- Dropping shadowed classes changes nothing that is found beyond the application. -/
theorem find?_dropShadowed {app : List ClassFile.Class} (aux : List ClassFile.Class) {name : Bytes}
    (h : (app.find? fun c => c.name = name) = none) :
    ((dropShadowed app aux).find? fun c => c.name = name) =
      aux.find? fun c => c.name = name := by
  cases hfind : aux.find? fun c => c.name = name with
  | none =>
    rw [List.find?_eq_none] at hfind ⊢
    intro c hc
    obtain ⟨entry, hentry, rfl⟩ := List.mem_map.mp hc
    exact hfind _ (List.fst_mem_of_mem_zipIdx (List.mem_of_mem_filter hentry))
  | some c =>
    obtain ⟨hc, before, after, rfl, hbefore⟩ := List.find?_eq_some_iff_append.mp hfind
    -- the first class of the name is kept, and nothing kept before it has the name
    have hname : c.name = name := of_decide_eq_true hc
    have hother : ∀ c' ∈ before, c'.name ≠ name := by
      intro c' hc'
      simpa using hbefore c' hc'
    have happ : c.name ∉ app.map (·.name) := by
      intro hmem
      obtain ⟨c', hc', heq⟩ := List.mem_map.mp hmem
      exact List.find?_eq_none.mp h c' hc' (decide_eq_true (heq.trans hname))
    have hfirst : c.name ∉ before.map (·.name) := by
      intro hmem
      obtain ⟨c', hc', heq⟩ := List.mem_map.mp hmem
      exact hother c' hc' (heq.trans hname)
    let keep (entry : ClassFile.Class × Nat) : Bool :=
      entry.1.name ∉ app.map (·.name) ∧
        entry.1.name ∉ ((before ++ c :: after).take entry.2).map (·.name)
    have hkeep : keep (c, before.length) = true := by
      simp only [keep, List.take_left, decide_eq_true_eq]
      exact ⟨happ, hfirst⟩
    have hnone : ((before.zipIdx.filter keep).map Prod.fst).find? (fun c' => c'.name = name) =
        none := by
      rw [List.find?_eq_none]
      intro c' hc'
      obtain ⟨entry, hentry, rfl⟩ := List.mem_map.mp hc'
      simpa using hother _ (List.fst_mem_of_mem_zipIdx (List.mem_of_mem_filter hentry))
    have hsplit : dropShadowed app (before ++ c :: after) =
        (before.zipIdx.filter keep).map Prod.fst ++
          c :: ((after.zipIdx (before.length + 1)).filter keep).map Prod.fst := by
      rw [dropShadowed, List.zipIdx_append, List.zipIdx_cons, List.filter_append, Nat.zero_add,
        List.filter_cons_of_pos hkeep, List.map_append, List.map_cons]
    rw [hsplit, List.find?_append, hnone, Option.none_or, List.find?_cons, hc]

/-- An audit over classes with distinct names does not depend on the order of the classes, nor on
the order of distinct classes that complete the class path, nor on the order in which the tasks run,
nor on classes that are shadowed. -/
theorem run_order_independent (options : AuditOptions) (canceled : Bool)
    (app aux : List ClassFile.Class) (happ : (app.map (·.name)).Nodup) :
    (∀ app', app'.Perm app → run options canceled app' aux = run options canceled app aux) ∧
    ((aux.map (·.name)).Nodup → ∀ aux', aux'.Perm aux →
      run options canceled app aux' = run options canceled app aux) ∧
    (∀ tasks, tasks.Perm app.zipIdx →
      runWith (fun detectors => detectInOrder tasks options.obligations detectors app aux) options
        canceled app = run options canceled app aux) ∧
    run options canceled app (dropShadowed app aux) = run options canceled app aux := by
  refine ⟨?_, ?_, ?_, ?_⟩
  · intro app' hp
    have happ' : (app'.map (·.name)).Nodup := (hp.map _).nodup_iff.mpr happ
    exact runWith_congr options canceled hp happ (fun _ _ => rfl)
      (fun detectors hd => detect_eq hd happ' options.obligations aux)
  · intro haux aux' hp
    exact runWith_congr options canceled (.refl app) happ
      (fun name _ => find?_key_perm haux hp name)
      (fun detectors hd => detect_eq hd happ options.obligations aux')
  · intro tasks htasks
    exact runWith_congr options canceled (.refl app) happ (fun _ _ => rfl)
      (fun detectors hd => detectInOrder_eq hd happ options.obligations aux htasks)
  · exact runWith_congr options canceled (.refl app) happ (fun name hn => find?_dropShadowed aux hn)
      (fun detectors hd => detect_eq hd happ options.obligations (dropShadowed app aux))

/-- A class named apart from its neighbour, in which a result is dropped too. -/
def droppedAgain : ClassFile.Class := { ReturnCheck.trimDropped with name := "a.A" }

/-- Two findings come out the same when the classes change places, when the second task runs first,
and when a class that is shadowed twice over is left out. -/
theorem run_trimDropped_droppedAgain :
    (run {} false [ReturnCheck.trimDropped, droppedAgain] []).map (·.stats.findings) = .ok 2 ∧
    run {} false [droppedAgain, ReturnCheck.trimDropped] [] =
      run {} false [ReturnCheck.trimDropped, droppedAgain] [] ∧
    runWith (fun detectors => detectInOrder [(droppedAgain, 1), (ReturnCheck.trimDropped, 0)] {}
      detectors [ReturnCheck.trimDropped, droppedAgain] []) {} false
      [ReturnCheck.trimDropped, droppedAgain] =
        run {} false [ReturnCheck.trimDropped, droppedAgain] [] ∧
    run {} false [ReturnCheck.trimDropped, droppedAgain] [] =
      run {} false [ReturnCheck.trimDropped, droppedAgain] [droppedAgain, droppedAgain] := by
  have hnodup : ([ReturnCheck.trimDropped, droppedAgain].map (·.name)).Nodup := by decide
  obtain ⟨happ, -, htasks, -⟩ := run_order_independent {} false
    [ReturnCheck.trimDropped, droppedAgain] [] hnodup
  obtain ⟨-, -, -, hshadowed⟩ := run_order_independent {} false
    [ReturnCheck.trimDropped, droppedAgain] [droppedAgain, droppedAgain] hnodup
  refine ⟨by decide +kernel, happ _ (.swap _ _ _), htasks _ (.swap _ _ _), ?_⟩
  exact hshadowed

end ReturnAudit.Audit
