import Mathlib.Data.List.Induction
import Mathlib.Data.List.TakeWhile
import ReturnAudit.Proofs.Suppression.RuleLists

/-!
# Histories of a checker

A checker that was loaded and cleared again and again is the checker that one load of what is left
gives. What is left are the classes of the loads that succeeded since it was last cleared and, of
every load since then, the rules before the first that cannot be used. So a load that fails on a
later rule leaves rules behind, and only one that fails on its first rule leaves nothing.
-/

namespace ReturnAudit

/-- Whether a rule can be used. -/
def Rule.isUsable (r : Rule) : Bool :=
  (r.compile 0).isOk

namespace Checker

/-- What a load is given. -/
structure Load where
  /-- The classes whose marks are added. -/
  classes : List ClassFile.Class
  /-- The rules that are added. -/
  rules : List Rule

namespace Load

/-- Whether the load succeeds. -/
def isAccepted (l : Load) : Bool :=
  (load {} l.classes l.rules).2.isNone

/-- The rules before the first that cannot be used. -/
def usableRules (l : Load) : List Rule :=
  l.rules.takeWhile Rule.isUsable

end Load

/-- Something that is done with a checker. -/
inductive Operation where
  /-- Classes and rules are loaded. -/
  | load (l : Load)
  /-- Everything is forgotten. -/
  | clear

/-- The checker after an operation. A load that fails tells its error to the caller, and the checker
is kept as the load left it. -/
def perform (c : Checker) : Operation → Checker
  | .load l => (c.load l.classes l.rules).1
  | .clear => {}

/-- A fresh checker after some operations. -/
def after (history : List Operation) : Checker :=
  history.foldl perform {}

/-- The loads since the checker was last cleared. -/
def loadsSinceClear (history : List Operation) : List Load :=
  history.foldl (fun loads operation =>
    match operation with
    | .load l => loads ++ [l]
    | .clear => []) []

/-- The loads since the checker was last cleared that succeeded. -/
def acceptedLoads (history : List Operation) : List Load :=
  (loadsSinceClear history).filter Load.isAccepted

/-- A rule can be used exactly when it is readable. -/
theorem isUsable_iff {r : Rule} : r.isUsable = true ↔ r.Readable := by
  constructor
  · intro h
    cases hr : r.compile 0 with
    | error e =>
      rw [Rule.isUsable, hr] at h
      cases h
    | ok compiled => exact Rule.readable_of_compile hr
  · intro h
    obtain ⟨compiled, hcompiled⟩ := h.exists_compile_eq
    rw [Rule.isUsable, hcompiled]
    rfl

/-- Reading stops at the first rule that cannot be used, whatever position it has. -/
theorem compileRules_takeWhile (index index' : Nat) (rules : List Rule) :
    compileRules index (rules.takeWhile Rule.isUsable) = ((compileRules index' rules).1, none) := by
  induction rules generalizing index index' with
  | nil => rfl
  | cons r rules ih =>
    by_cases hr : r.isUsable = true
    · obtain ⟨compiled, hcompiled⟩ := (isUsable_iff.mp hr).exists_compile_eq
      rw [List.takeWhile_cons_of_pos hr]
      simp only [compileRules, hcompiled, ih (index + 1) (index' + 1)]
    · rw [List.takeWhile_cons_of_neg hr]
      cases hcompile : r.compile index' with
      | error e => simp only [compileRules, hcompile]
      | ok compiled => exact absurd (isUsable_iff.mpr (Rule.readable_of_compile hcompile)) hr

/-- A list of rules can be used exactly when each of them can. -/
theorem compileRules_snd_eq_none_iff (index : Nat) (rules : List Rule) :
    (compileRules index rules).2 = none ↔ rules.takeWhile Rule.isUsable = rules := by
  constructor
  · intro h
    rw [List.takeWhile_eq_self_iff]
    induction rules generalizing index with
    | nil => simp
    | cons r rules ih =>
      cases hcompile : r.compile index with
      | error e =>
        simp only [compileRules, hcompile, reduceCtorEq] at h
      | ok compiled =>
        simp only [compileRules, hcompile] at h
        intro r' hr'
        rcases List.mem_cons.mp hr' with rfl | hr'
        · exact isUsable_iff.mpr (Rule.readable_of_compile hcompile)
        · exact ih (index + 1) h r' hr'
  · intro h
    rw [← h, compileRules_takeWhile index index]

/-- The rules of a load that succeeds can all be used. -/
theorem usableRules_of_isAccepted {l : Load} (h : l.isAccepted = true) :
    l.usableRules = l.rules :=
  (compileRules_snd_eq_none_iff 0 l.rules).mp (Option.isNone_iff_eq_none.mp h)

/-- A load after a load that succeeded is one load of the classes and rules of both, of the second
as far as it got. -/
theorem load_load {classes : List ClassFile.Class} {rules : List Rule} {c : Checker}
    (h : load {} classes rules = (c, none)) (l : Load) :
    load {} (classes ++ if l.isAccepted then l.classes else []) (rules ++ l.usableRules) =
      ((c.load l.classes l.rules).1, none) := by
  cases hcompiled : compileRules 0 rules with
  | mk compiled fault =>
    have hfault : fault = none := by
      have hsnd := congrArg Prod.snd h
      simpa only [load, hcompiled] using hsnd
    subst hfault
    have hc : c = ⟨classes.flatMap SuppressionMark.ofClass, compiled⟩ := by
      have hfst := congrArg Prod.fst h
      simpa only [load, hcompiled, Option.isNone_none, if_true, List.nil_append] using hfst.symm
    have husable := compileRules_takeWhile (0 + rules.length) 0 l.rules
    have haccepted : l.isAccepted = (compileRules 0 l.rules).2.isNone := rfl
    subst hc
    simp only [load, compileRules_append hcompiled, Load.usableRules, husable, haccepted,
      Option.isNone_none, if_true, List.nil_append, List.flatMap_append, apply_ite,
      List.flatMap_nil]

/-- One load of what a history left gives the checker that the history gave. -/
theorem load_eq_after (history : List Operation) :
    load {} ((acceptedLoads history).flatMap Load.classes)
      ((loadsSinceClear history).flatMap Load.usableRules) = (after history, none) := by
  induction history using List.reverseRecOn with
  | nil => rfl
  | append_singleton history operation ih =>
    cases operation with
    | clear =>
      simp only [acceptedLoads, loadsSinceClear, after, List.foldl_append, List.foldl_cons,
        List.foldl_nil, perform]
      rfl
    | load l =>
      have hloads : loadsSinceClear (history ++ [.load l]) = loadsSinceClear history ++ [l] := by
        simp only [loadsSinceClear, List.foldl_append, List.foldl_cons, List.foldl_nil]
      have hclasses : (acceptedLoads (history ++ [.load l])).flatMap Load.classes =
          (acceptedLoads history).flatMap Load.classes ++
            if l.isAccepted then l.classes else [] := by
        rw [acceptedLoads, hloads, List.filter_append, List.flatMap_append, ← acceptedLoads]
        by_cases hl : l.isAccepted = true <;> simp [hl]
      have hafter : after (history ++ [.load l]) =
          ((after history).load l.classes l.rules).1 := by
        simp only [after, List.foldl_append, List.foldl_cons, List.foldl_nil, perform]
      rw [hclasses, hloads, List.flatMap_append, List.flatMap_singleton, hafter]
      exact load_load ih l

/-- When no load failed behind a usable rule, only accepted loads left rules. -/
theorem flatMap_usableRules {loads : List Load}
    (h : ∀ l ∈ loads, l.isAccepted = false → l.usableRules = []) :
    loads.flatMap Load.usableRules = (loads.filter Load.isAccepted).flatMap Load.rules := by
  induction loads with
  | nil => rfl
  | cons l loads ih =>
    have hrest := ih fun l' hl' => h l' (List.mem_cons_of_mem l hl')
    by_cases hl : l.isAccepted = true
    · rw [List.filter_cons_of_pos hl, List.flatMap_cons, List.flatMap_cons, hrest,
        usableRules_of_isAccepted hl]
    · rw [List.filter_cons_of_neg hl, List.flatMap_cons, hrest,
        h l List.mem_cons_self (Bool.eq_false_iff.mpr hl), List.nil_append]

/-- A checker with any history answers as a fresh one that is loaded once: with the classes of the
accepted loads since it was last cleared and with the usable rules of all loads since then. When
none of these failed behind a usable rule, the rules are those of the accepted loads alone. -/
theorem history_is_one_load (history : List Operation) :
    load {} ((acceptedLoads history).flatMap Load.classes)
        ((loadsSinceClear history).flatMap Load.usableRules) = (after history, none) ∧
    ((∀ l ∈ loadsSinceClear history, l.isAccepted = false → l.usableRules = []) →
      load {} ((acceptedLoads history).flatMap Load.classes)
        ((acceptedLoads history).flatMap Load.rules) = (after history, none)) := by
  refine ⟨load_eq_after history, fun h => ?_⟩
  rw [acceptedLoads, ← flatMap_usableRules h]
  exact load_eq_after history

/-- A failed load between others, whose first rule is at fault, leaves nothing behind. -/
def interrupted : List Operation :=
  [.load ⟨[], [{}]⟩, .clear, .load ⟨[], [{ pattern := "NP" }]⟩, .load ⟨[], [{ method := "(" }, {}]⟩,
    .load ⟨[], [{ className := "p", reason := "generated" }]⟩]

/-- A failed load between two others may as well have been left out. -/
theorem history_is_one_load_interrupted :
    load {} [] [{ pattern := "NP" }, { className := "p", reason := "generated" }] =
      (after interrupted, none) := by
  have hfirst : ∀ l ∈ loadsSinceClear interrupted, l.isAccepted = false → l.usableRules = [] := by
    decide +kernel
  have hclasses : (acceptedLoads interrupted).flatMap Load.classes = [] := by
    simp only [acceptedLoads, loadsSinceClear, interrupted, List.flatMap_eq_nil_iff,
      List.mem_filter]
    simp
  have hrules : (acceptedLoads interrupted).flatMap Load.rules =
      [{ pattern := "NP" }, { className := "p", reason := "generated" }] := by
    decide +kernel
  rw [← hclasses, ← hrules]
  exact (history_is_one_load interrupted).2 hfirst

/-- A load that fails on its second rule leaves the first one behind, which excludes every finding
here. -/
theorem failed_load_leaves_rules :
    (load {} [] [{}, { className := "(" }]).2.isSome = true ∧
      (after [.load ⟨[], [{}, { className := "(" }]⟩]).isSuppressed {} = true ∧
      (after []).isSuppressed {} = false := by
  decide +kernel

end Checker

end ReturnAudit
