import ReturnAudit.Proofs.Suppression.RuleLists

/-!
# What is suppressed

An annotation on the class or the method of a finding suppresses it when it lists no patterns or the
beginning of the pattern of the finding; otherwise a rule may exclude it. Of each class and method
one annotation is looked at, so all of them count exactly where none has a second one.
-/

namespace ReturnAudit

open ClassFile

namespace SuppressionMark

/-- Whether an annotation is of a type that suppresses findings. -/
def suppresses (a : Annotation) : Bool :=
  suppressingTypes.contains a.className

/-- Whether an annotation lists a beginning of patterns: its value is that string, or an array with
an item of that text. -/
def Lists (a : Annotation) (beginning : Bytes) : Prop :=
  a.element? "value" = some (.const (Bytes.ofChar 's') beginning) ∨
    ∃ items, a.element? "value" = some (.array items) ∧ ∃ item ∈ items, item.constText = beginning

/-- Whether an annotation is about a pattern: it lists no patterns, or a beginning of this one. -/
def IsAbout (a : Annotation) (pattern : Bytes) : Prop :=
  (∀ beginning, ¬ Lists a beginning) ∨ ∃ beginning, Lists a beginning ∧ beginning <+: pattern

/-- Whether annotations stand at the place of a finding: on a class of its name, or on a method of
such a class with its name and descriptor. -/
inductive AtPlace (classes : List ClassFile.Class) (f : Finding) : List Annotation → Prop where
  /-- The annotations of the class. -/
  | onClass {c} (hc : c ∈ classes) (hname : c.name = f.className) : AtPlace classes f c.annotations
  /-- The annotations of the method. -/
  | onMethod {c m r} (hc : c ∈ classes) (hname : c.name = f.className) (hm : m ∈ c.methods)
      (hr : f.method = some r) (hkey : m.name ++ m.descriptor = r.name ++ r.signature) :
      AtPlace classes f m.annotations

/-- Whether an annotation in some classes suppresses a finding. -/
def Covers (classes : List ClassFile.Class) (f : Finding) (a : Annotation) : Prop :=
  ∃ annotations, AtPlace classes f annotations ∧ a ∈ annotations ∧ suppresses a = true ∧
    IsAbout a f.pattern

/-- Classes in which every annotation that suppresses findings is looked at, and only for its own
class or method. -/
structure Plain (classes : List ClassFile.Class) : Prop where
  /-- A class carries at most one. -/
  onClass : ∀ c ∈ classes, (c.annotations.filter suppresses).length ≤ 1
  /-- A method carries at most one. -/
  onMethod : ∀ c ∈ classes, ∀ m ∈ c.methods, (m.annotations.filter suppresses).length ≤ 1
  /-- A method has a name or a descriptor. -/
  named : ∀ c ∈ classes, ∀ m ∈ c.methods, m.name ++ m.descriptor ≠ []

/-- The patterns of an annotation are the beginnings that it lists. -/
theorem mem_patternsOf_iff {a : Annotation} {beginning : Bytes} :
    beginning ∈ patternsOf a ↔ Lists a beginning := by
  unfold patternsOf Lists
  cases a.element? "value" with
  | none => simp
  | some value =>
    cases value with
    | const tag text =>
      by_cases htag : tag = Bytes.ofChar 's' <;>
        simp [ClassFile.ElementValue.items, ClassFile.ElementValue.tag,
          ClassFile.ElementValue.constText, htag, eq_comm]
    | array items => simp [ClassFile.ElementValue.items, ClassFile.ElementValue.tag, Bytes.ofChar]
    | enumConst type name =>
      simp [ClassFile.ElementValue.items, ClassFile.ElementValue.tag, Bytes.ofChar]
    | classInfo descriptor =>
      simp [ClassFile.ElementValue.items, ClassFile.ElementValue.tag, Bytes.ofChar]
    | nested inner => simp [ClassFile.ElementValue.items, ClassFile.ElementValue.tag, Bytes.ofChar]

/-- The patterns of an annotation cover a pattern exactly when the annotation is about it. -/
theorem patterns_cover_iff {a : Annotation} {pattern : Bytes} :
    ((patternsOf a).isEmpty || (patternsOf a).any fun beginning => beginning.isPrefixOf pattern) =
      true ↔ IsAbout a pattern := by
  simp only [Bool.or_eq_true, List.isEmpty_iff, List.eq_nil_iff_forall_not_mem, List.any_eq_true,
    List.isPrefixOf_iff_prefix, mem_patternsOf_iff, IsAbout]

/-- A mark that is made of an annotation covers a finding of its class and method that the
annotation is about. -/
theorem covers_iff {className method : Bytes} {a : Annotation} {f : Finding} :
    covers ⟨className, method, patternsOf a, reasonOf a⟩ f = true ↔
      f.className = className ∧
        (method = [] ∨ ∃ r, f.method = some r ∧ r.name ++ r.signature = method) ∧
          IsAbout a f.pattern := by
  rw [covers, Bool.and_eq_true, Bool.and_eq_true, patterns_cover_iff]
  simp only [decide_eq_true_eq, and_assoc, Bool.or_eq_true, List.isEmpty_iff, Option.any_eq_true]

/-- The annotation that is looked at suppresses findings. -/
theorem of_ofAnnotations? {className method : Bytes} {annotations : List Annotation}
    {mark : SuppressionMark} (h : ofAnnotations? className method annotations = some mark) :
    ∃ a ∈ annotations, suppresses a = true ∧
      mark = ⟨className, method, patternsOf a, reasonOf a⟩ := by
  obtain ⟨a, ha, rfl⟩ := Option.map_eq_some_iff.mp h
  obtain ⟨type, htype, hfind⟩ := List.exists_of_findSome?_eq_some ha
  refine ⟨a, List.mem_of_find?_eq_some hfind, ?_, rfl⟩
  have hname : a.className = type := by simpa using List.find?_some hfind
  rw [suppresses, hname]
  exact List.contains_iff_mem.mpr htype

/-- Where there is no second annotation that suppresses findings, the first is looked at. -/
theorem ofAnnotations?_of_mem {className method : Bytes} {annotations : List Annotation}
    (hone : (annotations.filter suppresses).length ≤ 1) {a : Annotation} (ha : a ∈ annotations)
    (hsuppresses : suppresses a = true) :
    ofAnnotations? className method annotations =
      some ⟨className, method, patternsOf a, reasonOf a⟩ := by
  have hsome : (ofAnnotations? className method annotations).isSome = true := by
    rw [ofAnnotations?, Option.isSome_map, List.findSome?_isSome_iff]
    refine ⟨a.className, List.contains_iff_mem.mp hsuppresses, ?_⟩
    rw [ClassFile.Annotation.find?, List.find?_isSome]
    exact ⟨a, ha, decide_eq_true rfl⟩
  obtain ⟨mark, hmark⟩ := Option.isSome_iff_exists.mp hsome
  obtain ⟨b, hb, hsuppresses', rfl⟩ := of_ofAnnotations? hmark
  -- both annotations stand in a list of at most one
  have hmem : a ∈ annotations.filter suppresses := List.mem_filter.mpr ⟨ha, hsuppresses⟩
  have hmem' : b ∈ annotations.filter suppresses := List.mem_filter.mpr ⟨hb, hsuppresses'⟩
  obtain rfl : a = b := by
    match hfilter : annotations.filter suppresses with
    | [] => rw [hfilter] at hmem; cases hmem
    | [x] =>
      rw [hfilter, List.mem_singleton] at hmem hmem'
      rw [hmem, hmem']
    | x :: y :: rest =>
      rw [hfilter] at hone
      simp at hone
  exact hmark

/-- A mark of a class stems from an annotation on the class or on one of its methods. -/
theorem of_mem_ofClass {c : ClassFile.Class} {mark : SuppressionMark} (h : mark ∈ ofClass c) :
    (∃ a ∈ c.annotations, suppresses a = true ∧ mark = ⟨c.name, [], patternsOf a, reasonOf a⟩) ∨
      ∃ m ∈ c.methods, ∃ a ∈ m.annotations, suppresses a = true ∧
        mark = ⟨c.name, m.name ++ m.descriptor, patternsOf a, reasonOf a⟩ := by
  rcases List.mem_append.mp h with h | h
  · exact .inl (of_ofAnnotations? (Option.mem_toList.mp h))
  · obtain ⟨m, hm, hmark⟩ := List.mem_filterMap.mp h
    exact .inr ⟨m, hm, of_ofAnnotations? hmark⟩

variable {classes : List ClassFile.Class} {f : Finding}

/-- A mark that covers a finding stems from an annotation that covers it. -/
theorem Plain.covers_of_mark (h : Plain classes) {mark : SuppressionMark}
    (hmark : mark ∈ classes.flatMap ofClass) (hcovers : mark.covers f = true) :
    ∃ a, Covers classes f a ∧ mark.reason = reasonOf a := by
  obtain ⟨c, hc, hmark⟩ := List.mem_flatMap.mp hmark
  rcases of_mem_ofClass hmark with ⟨a, ha, hsuppresses, rfl⟩ | ⟨m, hm, a, ha, hsuppresses, rfl⟩
  · obtain ⟨hname, -, habout⟩ := covers_iff.mp hcovers
    exact ⟨a, ⟨_, .onClass hc hname.symm, ha, hsuppresses, habout⟩, rfl⟩
  · obtain ⟨hname, hmethod, habout⟩ := covers_iff.mp hcovers
    rcases hmethod with hempty | ⟨r, hr, hkey⟩
    · exact absurd hempty (h.named c hc m hm)
    · exact ⟨a, ⟨_, .onMethod hc hname.symm hm hr hkey.symm, ha, hsuppresses, habout⟩, rfl⟩

/-- An annotation that covers a finding leaves a mark that covers it. -/
theorem Plain.mark_of_covers (h : Plain classes) {a : Annotation} (ha : Covers classes f a) :
    ∃ mark ∈ classes.flatMap ofClass, mark.covers f = true := by
  obtain ⟨annotations, hplace, hmem, hsuppresses, habout⟩ := ha
  cases hplace with
  | @onClass c hc hname =>
    refine ⟨⟨c.name, [], patternsOf a, reasonOf a⟩, List.mem_flatMap.mpr ⟨c, hc, ?_⟩,
      covers_iff.mpr ⟨hname.symm, .inl rfl, habout⟩⟩
    exact List.mem_append_left _ (Option.mem_toList.mpr
      (ofAnnotations?_of_mem (h.onClass c hc) hmem hsuppresses))
  | @onMethod c m r hc hname hm hr hkey =>
    refine ⟨⟨c.name, m.name ++ m.descriptor, patternsOf a, reasonOf a⟩,
      List.mem_flatMap.mpr ⟨c, hc, ?_⟩,
      covers_iff.mpr ⟨hname.symm, .inr ⟨r, hr, hkey.symm⟩, habout⟩⟩
    exact List.mem_append_right _ (List.mem_filterMap.mpr
      ⟨m, hm, ofAnnotations?_of_mem (h.onMethod c hc m hm) hmem hsuppresses⟩)

end SuppressionMark

namespace Rule

/-- Whether an expression holds of a text: it is empty, or it matches between anchors. -/
def Holds (source text : Bytes) : Prop :=
  source = [] ∨ ∃ e, Regex.Expr.parse (anchored source) = .ok e ∧ e.isFoundIn text = true

/-- Whether a rule excludes a finding: all its expressions hold. -/
structure Excludes (r : Rule) (f : Finding) : Prop where
  /-- The expression for class names holds. -/
  className : Holds r.className f.className
  /-- The expression for method names holds; without a method the name is empty. -/
  method : Holds r.method (f.method.elim [] MethodRef.name)
  /-- The expression for patterns holds. -/
  pattern : Holds r.pattern f.pattern

/-- The condition that an expression is read as holds where the expression does. -/
theorem holdsOf_iff {source text : Bytes} {condition : Option Regex.Expr}
    (h : readExpression source = .ok condition) :
    holdsOf condition text = true ↔ Holds source text := by
  unfold readExpression at h
  by_cases hempty : source = []
  · rw [hempty, List.isEmpty_nil, if_pos rfl] at h
    cases h
    exact iff_of_true rfl (.inl hempty)
  · rw [if_neg (mt List.isEmpty_iff.mp hempty)] at h
    obtain ⟨e, he, rfl⟩ := of_map h
    simp only [holdsOf, Option.all_some, Holds, hempty, false_or, he, Except.ok.injEq,
      exists_eq_left']

/-- A rule that was read excludes what the rule as written excludes, and gives its reason. -/
theorem excludes_of_compile {r : Rule} {index : Nat} {compiled : Compiled}
    (h : r.compile index = .ok compiled) (f : Finding) :
    (compiled.excludes f = true ↔ r.Excludes f) ∧ compiled.reason = r.reason := by
  obtain ⟨className, hclass, h⟩ := of_bind h
  obtain ⟨method, hmethod, h⟩ := of_bind h
  obtain ⟨pattern, hpattern, h⟩ := of_bind h
  cases h
  refine ⟨?_, rfl⟩
  simp only [Compiled.excludes, Bool.and_eq_true, holdsOf_iff (of_mapError hclass),
    holdsOf_iff (of_mapError hmethod), holdsOf_iff (of_mapError hpattern), and_assoc]
  exact ⟨fun ⟨hc, hm, hp⟩ => ⟨hc, hm, hp⟩, fun ⟨hc, hm, hp⟩ => ⟨hc, hm, hp⟩⟩

/-- Whether a rule is the first of some rules that excludes a finding. -/
def FirstExcluding (rules : List Rule) (f : Finding) (r : Rule) : Prop :=
  ∃ before after, rules = before ++ r :: after ∧ r.Excludes f ∧ ∀ r' ∈ before, ¬ r'.Excludes f

end Rule

namespace Checker

open SuppressionMark (Plain Covers reasonOf)

/-- Among rules that were read the first that excludes a finding is found. -/
theorem find?_compileRules {rules : List Rule} {index : Nat} {compiled : List Rule.Compiled}
    (h : compileRules index rules = (compiled, none)) (f : Finding) :
    match compiled.find? fun rule => rule.excludes f with
    | some found => ∃ r, Rule.FirstExcluding rules f r ∧ found.reason = r.reason
    | none => ∀ r ∈ rules, ¬ r.Excludes f := by
  induction rules generalizing index compiled with
  | nil =>
    cases h
    simp
  | cons r rules ih =>
    obtain ⟨first, others, hcompile, hrest, rfl⟩ := of_compileRules_cons h
    obtain ⟨hexcludes, hreason⟩ := Rule.excludes_of_compile hcompile f
    have hothers := ih hrest
    by_cases hfirst : r.Excludes f
    · simp only [List.find?_cons, hexcludes.mpr hfirst]
      exact ⟨r, ⟨[], rules, rfl, hfirst, by simp⟩, hreason⟩
    · simp only [List.find?_cons, Bool.eq_false_iff.mpr (mt hexcludes.mp hfirst)]
      cases hfind : others.find? fun rule => rule.excludes f with
      | some found =>
        rw [hfind] at hothers
        obtain ⟨r', ⟨before, after, rfl, hr', hbefore⟩, hreason'⟩ := hothers
        refine ⟨r', ⟨r :: before, after, rfl, hr', ?_⟩, hreason'⟩
        exact List.forall_mem_cons.mpr ⟨hfirst, hbefore⟩
      | none =>
        rw [hfind] at hothers
        exact List.forall_mem_cons.mpr ⟨hfirst, hothers⟩

/-- What a successful load of a fresh checker holds. -/
theorem of_load {classes : List ClassFile.Class} {rules : List Rule} {c : Checker}
    (h : load {} classes rules = (c, none)) :
    c.marks = classes.flatMap SuppressionMark.ofClass ∧ compileRules 0 rules = (c.rules, none) := by
  cases hcompiled : compileRules 0 rules with
  | mk compiled fault =>
    simp only [load, hcompiled, Prod.mk.injEq] at h
    obtain ⟨rfl, rfl⟩ := h
    exact ⟨by simp, by simp⟩

/-- A finding is suppressed exactly when an annotation covers it or a rule excludes it. The reason
is the justification of an annotation that covers it or, when there is none, that of the first rule
that excludes it. -/
theorem suppressed_iff_covered {classes : List ClassFile.Class} {rules : List Rule} {c : Checker}
    (hload : load {} classes rules = (c, none)) (hplain : Plain classes) (f : Finding) :
    (c.isSuppressed f = true ↔ (∃ a, Covers classes f a) ∨ ∃ r ∈ rules, r.Excludes f) ∧
      ∀ reason, c.reason? f = some reason →
        (∃ a, Covers classes f a ∧ reason = reasonOr (reasonOf a)) ∨
          (¬ ∃ a, Covers classes f a) ∧
            ∃ r, Rule.FirstExcluding rules f r ∧ reason = reasonOr r.reason := by
  obtain ⟨hmarks, hrules⟩ := of_load hload
  have hfound := find?_compileRules hrules f
  unfold isSuppressed reason?
  rw [hmarks]
  cases hmark : (classes.flatMap SuppressionMark.ofClass).find? fun mark => mark.covers f with
  | some mark =>
    have hcovers : mark.covers f = true := by simpa only using List.find?_some hmark
    obtain ⟨a, ha, hreason⟩ := hplain.covers_of_mark (List.mem_of_find?_eq_some hmark) hcovers
    refine ⟨iff_of_true rfl (.inl ⟨a, ha⟩), ?_⟩
    rintro reason ⟨rfl⟩
    exact .inl ⟨a, ha, by rw [hreason]⟩
  | none =>
    have huncovered : ¬ ∃ a, Covers classes f a := by
      rintro ⟨a, ha⟩
      obtain ⟨mark, hmem, hcovers⟩ := hplain.mark_of_covers ha
      exact List.find?_eq_none.mp hmark mark hmem hcovers
    cases hrule : c.rules.find? fun rule => rule.excludes f with
    | some found =>
      rw [hrule] at hfound
      obtain ⟨r, hr, hreason⟩ := hfound
      obtain ⟨before, after, hsplit, hexcludes, -⟩ := id hr
      refine ⟨iff_of_true rfl (.inr ⟨r, ?_, hexcludes⟩), ?_⟩
      · rw [hsplit]
        exact List.mem_append_right _ List.mem_cons_self
      · rintro reason ⟨rfl⟩
        exact .inr ⟨huncovered, r, hr, by rw [← hreason]⟩
    | none =>
      rw [hrule] at hfound
      refine ⟨iff_of_false (by simp) ?_, by simp⟩
      rintro (h | ⟨r, hr, hexcludes⟩)
      · exact huncovered h
      · exact hfound r hr hexcludes

/-- An annotation with a string value that suppresses findings. -/
def suppressing (type value justification : String) : Annotation :=
  .mk (Descriptor.ofClass ("edu.umd.cs.findbugs.annotations." ++ type : String)) true
    [("value", .const (Bytes.ofChar 's') value),
      ("justification", .const (Bytes.ofChar 's') justification)]

/-- A class with one method, both with annotations. -/
def marked (onClass onMethod : List Annotation) : ClassFile.Class :=
  { major := 52, minor := 0, access := ClassFile.accPublic, name := "p.A",
    super := "java.lang.Object", interfaces := [], fields := [], annotations := onClass,
    sourceFile := [], pool := ⟨#[]⟩,
    methods := [⟨ClassFile.accPublic, "run", "()V", onMethod, none⟩] }

/-- A finding in the method of that class. -/
def inMarked (pattern : String) : Finding :=
  { pattern, className := "p.A", method := some ⟨"p.A", "run", "()V", false⟩ }

/-- That class with an annotation on the class about other patterns, and one on the method. -/
def markedTwice : ClassFile.Class :=
  marked [suppressing "SuppressFBWarnings" "NP" ""] [suppressing "SuppressWarnings" "RV" "checked"]

/-- A finding that the annotation on its method is about and no rule excludes is covered. -/
theorem suppressed_iff_covered_markedTwice :
    Plain [markedTwice] ∧ (load {} [markedTwice] [{ pattern := "UR" }]).2 = none ∧
      ((∃ a, Covers [markedTwice] (inMarked "RV_X") a) ∨
        ∃ r ∈ [({ pattern := "UR" } : Rule)], r.Excludes (inMarked "RV_X")) := by
  have hplain : Plain [markedTwice] := by
    refine ⟨?_, ?_, ?_⟩ <;> decide +kernel
  have hfault : (load {} [markedTwice] [{ pattern := "UR" }]).2 = none := by decide +kernel
  have hsuppressed :
      (load {} [markedTwice] [{ pattern := "UR" }]).1.isSuppressed (inMarked "RV_X") = true := by
    decide +kernel
  cases hload : load {} [markedTwice] [{ pattern := "UR" }] with
  | mk c fault =>
    rw [hload] at hfault hsuppressed
    obtain rfl : fault = none := hfault
    exact ⟨hplain, rfl, (suppressed_iff_covered hload hplain (inMarked "RV_X")).1.mp hsuppressed⟩

/-- Of two annotations that suppress findings only the one that is looked up first counts: the class
has one that covers the finding, which is not suppressed. -/
theorem second_annotation_is_not_looked_at :
    let c := marked
      [suppressing "SuppressWarnings" "NP" "", suppressing "SuppressFBWarnings" "RV" ""] []
    (∃ a, Covers [c] (inMarked "NP_X") a) ∧ (load {} [c] []).2 = none ∧
      (load {} [c] []).1.isSuppressed (inMarked "NP_X") = false := by
  intro c
  refine ⟨⟨suppressing "SuppressWarnings" "NP" "", c.annotations, .onClass List.mem_cons_self rfl,
    List.mem_cons_self, by decide +kernel, .inr ⟨"NP", .inl ?_, by decide +kernel⟩⟩,
    by decide +kernel, by decide +kernel⟩
  simp only [suppressing, ClassFile.Annotation.element?, ClassFile.Annotation.elements,
    List.lookup_cons_self]

end Checker

end ReturnAudit
