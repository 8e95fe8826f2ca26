import Mathlib.Data.List.Forall2
import ReturnAudit.Proofs.Regex.Searching
import ReturnAudit.Proofs.Regex.Wrapping
import ReturnAudit.Proofs.Suppression.RuleLists

/-!
# Rules and whole names

The expression of a rule is put between anchors as a text and read there. An expression that can be
read on its own holds of a name exactly when it matches the whole name. That it can be read on its
own is not looked at: a text that closes the group around it is taken as well, and the anchors then
belong to its ends only.
-/

namespace ReturnAudit

namespace Regex

variable {text : List Nat}

/-- The items that an expression contributes match in turn what it matches. -/
theorem Expr.spansInTurn_itemsOf (e : Expr) :
    Expr.SpansInTurn text (Building.itemsOf e) = e.Spans text := by
  cases e <;> simp [Building.itemsOf, Expr.SpansInTurn, Expr.Spans]

/-- What an expression matches ends no earlier than it begins. -/
theorem Expr.le_of_spans {e : Expr} {i j : Nat} (h : e.Spans text i j) : i ≤ j :=
  e.unmarked.le_of_spans (by rwa [Expr.spans_unmarked])

/-- An expression between anchors is found where the expression matches everything. -/
theorem isFoundIn_anchored_iff (e : Expr) (s : Bytes) :
    (Expr.sequence (.assert .textStart :: Building.itemsOf e ++ [.assert .textEnd])).isFoundIn s =
      true ↔ e.MatchesWhole s := by
  rw [Expr.isFoundIn_iff, Expr.MatchesWhole]
  generalize Utf8.points s = text
  have hspans : ∀ i j, (Expr.sequence (.assert .textStart :: Building.itemsOf e ++
      [.assert .textEnd])).Spans text i j ↔ (gapAt text i).1 = none ∧ e.Spans text i j ∧
        (gapAt text j).2 = none := by
    intro i j
    rw [Expr.Spans, Expr.spansInTurn_append]
    rw [Expr.SpansInTurn, Expr.spansInTurn_itemsOf, Expr.SpansInTurn, Expr.SpansInTurn, then_eq]
    constructor
    · rintro ⟨j', ⟨i', ⟨rfl, hstart⟩, hmatch⟩, rfl, hend⟩
      exact ⟨Option.isNone_iff_eq_none.mp hstart, hmatch, Option.isNone_iff_eq_none.mp hend⟩
    · rintro ⟨hstart, hmatch, hend⟩
      exact ⟨j, ⟨i, ⟨rfl, Option.isNone_iff_eq_none.mpr hstart⟩, hmatch⟩, rfl,
        Option.isNone_iff_eq_none.mpr hend⟩
  simp only [hspans]
  constructor
  · rintro ⟨i, j, hj, hstart, hmatch, hend⟩
    have hi : i = 0 := by
      by_contra hne
      rw [gapAt, if_neg hne, List.getElem?_eq_none_iff] at hstart
      have hle := Expr.le_of_spans hmatch
      omega
    have hj' : j = text.length := le_antisymm hj (List.getElem?_eq_none_iff.mp hend)
    rwa [hi, hj'] at hmatch
  · intro h
    exact ⟨0, text.length, Nat.le_refl _, rfl, h, by simp [gapAt]⟩

end Regex

namespace Rule

/-- The expression that stands in a field. -/
def expression (r : Rule) : Field → Bytes
  | .className => r.className
  | .method => r.method
  | .pattern => r.pattern

/-- The condition that a field has become. -/
def Compiled.condition (compiled : Compiled) : Field → Option Regex.Expr
  | .className => compiled.className
  | .method => compiled.method
  | .pattern => compiled.pattern

/-- Whether every field that holds an expression which can be read on its own has become a condition
that holds of a name exactly when the expression matches the whole name. -/
def MatchesWholeNames (r : Rule) (compiled : Compiled) : Prop :=
  ∀ field e, r.expression field ≠ [] → Regex.Expr.parse (r.expression field) = .ok e →
    ∀ name, holdsOf (compiled.condition field) name = true ↔ e.MatchesWhole name

/-- An anchored expression stands between the opening and the closing. -/
theorem anchored_eq (source : Bytes) :
    anchored source = Regex.opening ++ source ++ Regex.closing := by
  have hopening : Bytes.ofString "^(?:" = Regex.opening := by decide +kernel
  have hclosing : Bytes.ofString ")$" = Regex.closing := by decide +kernel
  rw [anchored, hopening, hclosing]

/-- The condition of a field is what its expression is read as. -/
theorem readExpression_of_compile {r : Rule} {index : Nat} {compiled : Compiled}
    (h : r.compile index = .ok compiled) (field : Field) :
    readExpression (r.expression field) = .ok (compiled.condition field) := by
  obtain ⟨className, hclass, h⟩ := of_bind h
  obtain ⟨method, hmethod, h⟩ := of_bind h
  obtain ⟨pattern, hpattern, h⟩ := of_bind h
  cases h
  cases field with
  | className => exact of_mapError hclass
  | method => exact of_mapError hmethod
  | pattern => exact of_mapError hpattern

/-- A rule that can be used is about whole names. -/
theorem matchesWholeNames_of_compile {r : Rule} {index : Nat} {compiled : Compiled}
    (h : r.compile index = .ok compiled) : r.MatchesWholeNames compiled := by
  intro field e hne hparse name
  have hread := readExpression_of_compile h field
  rw [readExpression, if_neg (by simpa using hne), anchored_eq] at hread
  obtain ⟨w, hw, hcondition⟩ := of_map hread
  rw [← hcondition, Regex.parse_anchored hparse hw]
  exact Regex.isFoundIn_anchored_iff e name

end Rule

namespace Checker

/-- The rules that are read are used one by one. -/
theorem forall_compile_of_compileRules {index : Nat} {rules : List Rule}
    {compiled : List Rule.Compiled} (h : compileRules index rules = (compiled, none)) :
    List.Forall₂ (fun r k => ∃ i, r.compile i = .ok k) rules compiled := by
  induction rules generalizing index compiled with
  | nil =>
    cases h
    exact .nil
  | cons r rules ih =>
    obtain ⟨first, others, hfirst, hothers, rfl⟩ := of_compileRules_cons h
    exact .cons ⟨index, hfirst⟩ (ih hothers)

/-- A field of a loaded rule whose expression can be read on its own holds of exactly the names that
the expression matches as a whole. -/
theorem loaded_rules_match_whole_names {c : Checker} {classes : List ClassFile.Class}
    {rules : List Rule} (h : (c.load classes rules).2 = none) :
    ∃ compiled, (c.load classes rules).1.rules = c.rules ++ compiled ∧
      List.Forall₂ Rule.MatchesWholeNames rules compiled := by
  cases hcompiled : compileRules 0 rules with
  | mk compiled fault =>
    have hfault : fault = none := by simpa only [load, hcompiled] using h
    subst hfault
    refine ⟨compiled, by simp only [load, hcompiled], ?_⟩
    refine (forall_compile_of_compileRules hcompiled).imp fun r k hrk => ?_
    obtain ⟨index, hindex⟩ := hrk
    exact Rule.matchesWholeNames_of_compile hindex

/-- A rule with alternatives. -/
def alternatives : Rule :=
  { className := "java|javax", method := "get(Name)?" }

/-- Alternatives match as a whole, each of them between both anchors. -/
theorem loaded_rules_match_whole_names_alternatives :
    (load {} [] [alternatives]).2 = none ∧
      (Regex.Expr.parse (alternatives.expression .className)).isOk = true ∧
        ∃ compiled, (load {} [] [alternatives]).1.rules = [] ++ compiled ∧
          List.Forall₂ Rule.MatchesWholeNames [alternatives] compiled :=
  have h : (load {} [] [alternatives]).2 = none := by decide +kernel
  ⟨h, by decide +kernel, loaded_rules_match_whole_names h⟩

/-- A rule whose expression closes the group that it is put into and opens another. -/
def unbalanced : Rule :=
  { className := "a)|(?:b" }

/-- What cannot be read on its own is taken, and then holds of more than whole names. -/
theorem unbalanced_is_loaded :
    (load {} [] [unbalanced]).2 = none ∧
      (Regex.Expr.parse (unbalanced.expression .className)).isOk = false ∧
        (load {} [] [unbalanced]).1.rules.map (fun k => Rule.holdsOf k.className "axyz") =
          [true] := by
  decide +kernel

end Checker

end ReturnAudit
