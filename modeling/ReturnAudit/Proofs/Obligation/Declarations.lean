import ReturnAudit.Obligation.Resolve
import ReturnAudit.Proofs.Hierarchy.Ancestors

/-!
# Where an obligation comes from

The classes that are asked for the obligation of a called method form a walk: its own class, and
then the ancestors unless it is an initializer. The first class of the walk that declares an
obligation decides. Where none does, the catalog and the general rule are asked, and they only know
one answer. Every outcome has the priority of its kind.
-/

namespace ReturnAudit

open ClassFile

/-- The dotted names of the annotation classes that express an obligation. -/
def recognisedNames : List Bytes :=
  (["javax.annotation.CheckReturnValue", "edu.umd.cs.findbugs.annotations.CheckReturnValue",
    "com.google.errorprone.annotations.CheckReturnValue",
    "com.google.errorprone.annotations.CanIgnoreReturnValue"] : List String).map Bytes.ofString

/-- Whether an annotation expresses an obligation. -/
def Recognised (a : Annotation) : Prop :=
  a.className ∈ recognisedNames

/-- Whether the first recognised one of some annotations expresses an obligation. -/
def FirstExpresses (annotations : List Annotation) (o : Obligation) : Prop :=
  ∃ before a later, annotations = before ++ a :: later ∧ (∀ b ∈ before, ¬Recognised b) ∧
    Obligation.ofAnnotation? a = some o

/-- Whether a method gives a result and is no initializer. -/
def GivesResult (name signature : Bytes) : Prop :=
  Descriptor.returnType signature ≠ Bytes.ofString "V" ∧ name ≠ Bytes.ofString "<init>" ∧
    name ≠ Bytes.ofString "<clinit>"

/-- Whether a class declares an obligation for a method: its first method of that name and
descriptor does by an annotation of its own, or it has none and the class does for all methods that
give a result. -/
inductive Declares (c : ClassFile.Class) (name signature : Bytes) : Obligation → Prop
  /-- The method carries a recognised annotation. -/
  | onMethod {m : ClassFile.Method} {o : Obligation} (hm : c.method? name signature = some m)
      (ho : FirstExpresses m.annotations o) : Declares c name signature o
  /-- The method carries none, and the class does. -/
  | onClass {m : ClassFile.Method} {o : Obligation} (hm : c.method? name signature = some m)
      (hnone : ∀ a ∈ m.annotations, ¬Recognised a) (hresult : GivesResult name signature)
      (ho : FirstExpresses c.annotations o) : Declares c name signature o

/-- The classes that are asked for the obligation of a called method, in order. -/
def walk (h : Hierarchy) (ref : MethodRef) : List ClassFile.Class :=
  (h.find? ref.owner).toList ++
    if ref.name = Bytes.ofString "<init>" ∨ ref.name = Bytes.ofString "<clinit>" then []
    else h.ancestors ref.owner

/-- Whether an entry of the catalog covers the called method, seen as a method of its own class or
of a class that is asked. -/
def Catalogued (h : Hierarchy) (options : ObligationOptions) (ref : MethodRef) : Prop :=
  ∃ owner, (owner = ref.owner ∨ ∃ c ∈ walk h ref, c.name = owner) ∧
    ∃ e ∈ options.fullCatalog, e.covers owner ref.name ref.signature = true

/-- Whether the priority is one of its kind: what has to be used has one from one to three, and
nothing else has a priority or is declared by the called class. -/
def Obligation.Ranked (o : Obligation) : Prop :=
  o.kind = .check ∧ o.priority ∈ ([1, 2, 3] : List Int) ∨
    (o.kind = .ignore ∨ o.kind = .unset) ∧ o.priority = 0 ∧ o.direct = false

/-- The names of initializers are these two. -/
theorem isInitializerName_iff (name : Bytes) :
    MethodRef.isInitializerName name = true ↔
      name = Bytes.ofString "<init>" ∨ name = Bytes.ofString "<clinit>" := by
  rw [MethodRef.isInitializerName, Bool.or_eq_true, decide_eq_true_eq, decide_eq_true_eq]

/-- The general rule applies to a method that gives a result and is no constructor. -/
theorem takesGeneralRule_iff (name signature : Bytes) :
    takesGeneralRule name signature = true ↔ GivesResult name signature := by
  rw [takesGeneralRule, Bool.and_eq_true, Bool.not_eq_true', Bool.eq_false_iff, ne_eq,
    isInitializerName_iff, decide_eq_true_eq, not_or, GivesResult, and_comm]

/-- An annotation expresses nothing exactly when it is not recognised. -/
theorem ofAnnotation?_eq_none_iff (a : Annotation) :
    Obligation.ofAnnotation? a = none ↔ ¬Recognised a := by
  rw [Obligation.ofAnnotation?, Option.map_eq_none_iff, Recognised, ObligationMark.ofClassName?]
  simp only [recognisedNames, List.map_cons, List.map_nil, List.mem_cons, List.not_mem_nil,
    or_false, not_or]
  split_ifs <;> simp_all

/-- Annotations express what the first recognised one does. -/
theorem ofAnnotations?_eq_some_iff {annotations : List Annotation} {o : Obligation} :
    Obligation.ofAnnotations? annotations = some o ↔ FirstExpresses annotations o := by
  rw [Obligation.ofAnnotations?, List.findSome?_eq_some_iff, FirstExpresses]
  simp only [ofAnnotation?_eq_none_iff]
  constructor
  · rintro ⟨before, a, later, hsplit, ho, hbefore⟩
    exact ⟨before, a, later, hsplit, hbefore, ho⟩
  · rintro ⟨before, a, later, hsplit, hbefore, ho⟩
    exact ⟨before, a, later, hsplit, ho, hbefore⟩

/-- Annotations express nothing exactly when none of them is recognised. -/
theorem ofAnnotations?_eq_none_iff {annotations : List Annotation} :
    Obligation.ofAnnotations? annotations = none ↔ ∀ a ∈ annotations, ¬Recognised a := by
  rw [Obligation.ofAnnotations?, List.findSome?_eq_none_iff]
  simp only [ofAnnotation?_eq_none_iff]

/-- A class gives an obligation to a method exactly when it declares this one. -/
theorem declaredBy?_eq_some_iff {c : ClassFile.Class} {name signature : Bytes} {o : Obligation} :
    Obligation.declaredBy? c name signature = some o ↔ Declares c name signature o := by
  unfold Obligation.declaredBy?
  cases hm : c.method? name signature with
  | none =>
    refine iff_of_false (by simp) ?_
    rintro (⟨hm', -⟩ | ⟨hm', -⟩) <;> cases hm.symm.trans hm'
  | some m =>
    dsimp only
    cases hown : Obligation.ofAnnotations? m.annotations with
    | some own =>
      rw [Option.some_inj]
      constructor
      · rintro rfl
        exact .onMethod hm (ofAnnotations?_eq_some_iff.mp hown)
      · rintro (⟨hm', ho⟩ | ⟨hm', hnone, -⟩) <;> cases hm.symm.trans hm'
        · exact Option.some.inj (hown.symm.trans (ofAnnotations?_eq_some_iff.mpr ho))
        · cases hown.symm.trans (ofAnnotations?_eq_none_iff.mpr hnone)
    | none =>
      dsimp only
      split
      · next hgeneral =>
        have hresult := (takesGeneralRule_iff name signature).mp hgeneral
        rw [ofAnnotations?_eq_some_iff]
        constructor
        · exact fun ho => .onClass hm (ofAnnotations?_eq_none_iff.mp hown) hresult ho
        · rintro (⟨hm', ho⟩ | ⟨-, -, -, ho⟩)
          · cases hm.symm.trans hm'
            cases hown.symm.trans (ofAnnotations?_eq_some_iff.mpr ho)
          · exact ho
      · next hgeneral =>
        refine iff_of_false (by simp) ?_
        rintro (⟨hm', ho⟩ | ⟨-, -, hresult, -⟩)
        · cases hm.symm.trans hm'
          cases hown.symm.trans (ofAnnotations?_eq_some_iff.mpr ho)
        · exact hgeneral ((takesGeneralRule_iff name signature).mpr hresult)

/-- A class gives a method no obligation exactly when it declares none. -/
theorem declaredBy?_eq_none_iff {c : ClassFile.Class} {name signature : Bytes} :
    Obligation.declaredBy? c name signature = none ↔ ∀ o, ¬Declares c name signature o := by
  rw [Option.eq_none_iff_forall_ne_some]
  exact forall_congr' fun o => not_congr declaredBy?_eq_some_iff

/-- A class is none of its ancestors. -/
theorem Hierarchy.name_ne_of_mem_ancestors {h : Hierarchy} {name : Bytes} {c : ClassFile.Class}
    (hc : c ∈ h.ancestors name) : c.name ≠ name := by
  cases hstart : h.find? name with
  | none =>
    rw [ancestors, hstart] at hc
    cases hc
  | some start =>
    obtain ⟨chain, level, hchain, hlevel, -, heq⟩ := exists_ancestors_eq hstart
    exact name_ne_of_mem_walk hstart hchain hlevel _ (heq ▸ hc)

/-- The classes that are asked are the owner, if it is known, and those it inherits from. -/
theorem walk_eq (h : Hierarchy) (ref : MethodRef) :
    walk h ref = (h.find? ref.owner).toList ++ inheritedFrom h ref := by
  simp only [walk, inheritedFrom, MethodRef.isConstructor, isInitializerName_iff]

/-- The owner is not among the classes it inherits from. -/
theorem name_ne_of_mem_inheritedFrom {h : Hierarchy} {ref : MethodRef} {c : ClassFile.Class}
    (hc : c ∈ inheritedFrom h ref) : c.name ≠ ref.owner := by
  unfold inheritedFrom at hc
  split at hc
  · cases hc
  · exact Hierarchy.name_ne_of_mem_ancestors hc

/-- The obligation that a class of the walk gives the called method; only its own class declares it
directly. -/
def given? (ref : MethodRef) (c : ClassFile.Class) : Option Obligation :=
  (Obligation.declaredBy? c ref.name ref.signature).map fun o =>
    { o with direct := o.direct && c.name = ref.owner }

/-- A class that is asked gives nothing exactly when it declares nothing for the method. -/
theorem given?_eq_none_iff {ref : MethodRef} {c : ClassFile.Class} :
    given? ref c = none ↔ ∀ o, ¬Declares c ref.name ref.signature o := by
  rw [given?, Option.map_eq_none_iff, declaredBy?_eq_none_iff]

private theorem findSome?_congr {α β : Type} {f g : α → Option β} {l : List α}
    (h : ∀ a ∈ l, f a = g a) : l.findSome? f = l.findSome? g := by
  induction l with
  | nil => rfl
  | cons a l ih =>
    rw [List.forall_mem_cons] at h
    rw [List.findSome?_cons, List.findSome?_cons, h.1, ih h.2]

/-- The first class of the walk that gives an obligation decides, then the catalog, then the general
rule. -/
theorem resolve_eq (h : Hierarchy) (options : ObligationOptions) (ref : MethodRef) :
    Obligation.resolve h options ref = ((walk h ref).findSome? (given? ref)).getD
      (if (ref.owner :: (inheritedFrom h ref).map (·.name)).any (fun owner =>
          CatalogEntry.covered options.fullCatalog owner ref) then .inherited Obligation.low
        else if options.checkAll && takesGeneralRule ref.name ref.signature then
          .inherited Obligation.low
        else .unset) := by
  have hown : (h.find? ref.owner).toList.findSome? (given? ref) =
      (h.find? ref.owner).bind fun c => Obligation.declaredBy? c ref.name ref.signature := by
    cases hfind : h.find? ref.owner with
    | none => rfl
    | some c =>
      have hname := Hierarchy.name_of_find? hfind
      simp [given?, hname]
  have hinherited : (inheritedFrom h ref).findSome? (given? ref) =
      ((inheritedFrom h ref).findSome? fun c =>
        Obligation.declaredBy? c ref.name ref.signature).map
          fun o => { o with direct := false } := by
    rw [List.map_findSome?]
    refine findSome?_congr fun c hc => ?_
    simp only [given?, Function.comp_apply, name_ne_of_mem_inheritedFrom hc, decide_false,
      Bool.and_false]
  rw [walk_eq, List.findSome?_append, hown, hinherited]
  unfold Obligation.resolve
  cases (h.find? ref.owner).bind fun c => Obligation.declaredBy? c ref.name ref.signature with
  | some o => rfl
  | none =>
    dsimp only
    cases (inheritedFrom h ref).findSome? fun c =>
      Obligation.declaredBy? c ref.name ref.signature with
    | some o => rfl
    | none => rfl

/-- The obligation of the first class of the walk that declares one. -/
theorem resolve_of_declares {h : Hierarchy} {options : ObligationOptions} {ref : MethodRef}
    {before later : List ClassFile.Class} {c : ClassFile.Class} {o : Obligation}
    (hsplit : walk h ref = before ++ c :: later)
    (hbefore : ∀ b ∈ before, ∀ o', ¬Declares b ref.name ref.signature o')
    (ho : Declares c ref.name ref.signature o) :
    Obligation.resolve h options ref = { o with direct := o.direct && c.name = ref.owner } := by
  have hgiven : given? ref c = some { o with direct := o.direct && c.name = ref.owner } := by
    rw [given?, declaredBy?_eq_some_iff.mpr ho, Option.map_some]
  have hfirst := List.findSome?_eq_some_iff.mpr
    ⟨before, c, later, hsplit, hgiven, fun b hb => given?_eq_none_iff.mpr (hbefore b hb)⟩
  rw [resolve_eq, hfirst, Option.getD_some]

/-- Some class that is asked has a covering entry exactly when the method is catalogued. -/
theorem any_covered_iff {h : Hierarchy} {options : ObligationOptions} {ref : MethodRef} :
    ((ref.owner :: (inheritedFrom h ref).map (·.name)).any fun owner =>
      CatalogEntry.covered options.fullCatalog owner ref) = true ↔ Catalogued h options ref := by
  have howner : ∀ owner, owner ∈ ref.owner :: (inheritedFrom h ref).map (·.name) ↔
      owner = ref.owner ∨ ∃ c ∈ walk h ref, c.name = owner := by
    intro owner
    rw [List.mem_cons, List.mem_map, walk_eq]
    constructor
    · rintro (heq | ⟨c, hc, hname⟩)
      · exact .inl heq
      · exact .inr ⟨c, List.mem_append_right _ hc, hname⟩
    · rintro (heq | ⟨c, hc, hname⟩)
      · exact .inl heq
      · rcases List.mem_append.mp hc with hc | hc
        · exact .inl (hname.symm.trans (Hierarchy.name_of_find? (Option.mem_toList.mp hc)))
        · exact .inr ⟨c, hc, hname⟩
  simp only [List.any_eq_true, howner, CatalogEntry.covered, Catalogued]

/-- Where no class of the walk declares an obligation, the catalog or the general rule gives one of
low priority, or there is none. -/
theorem resolve_of_not_declares {h : Hierarchy} {options : ObligationOptions} {ref : MethodRef}
    (hnone : ∀ c ∈ walk h ref, ∀ o, ¬Declares c ref.name ref.signature o) :
    ((Catalogued h options ref ∨ options.checkAll = true ∧ GivesResult ref.name ref.signature) →
      Obligation.resolve h options ref = .inherited Obligation.low) ∧
    (¬(Catalogued h options ref ∨ options.checkAll = true ∧ GivesResult ref.name ref.signature) →
      Obligation.resolve h options ref = .unset) := by
  have hnothing : (walk h ref).findSome? (given? ref) = none :=
    List.findSome?_eq_none_iff.mpr fun c hc => given?_eq_none_iff.mpr (hnone c hc)
  rw [resolve_eq, hnothing, Option.getD_none]
  have hrule : (options.checkAll && takesGeneralRule ref.name ref.signature) = true ↔
      options.checkAll = true ∧ GivesResult ref.name ref.signature := by
    rw [Bool.and_eq_true, takesGeneralRule_iff]
  constructor
  · rintro (hcatalogued | hgeneral)
    · rw [if_pos (any_covered_iff.mpr hcatalogued)]
    · rw [if_pos (hrule.mpr hgeneral), ite_self]
  · intro hneither
    rw [not_or] at hneither
    rw [if_neg (mt any_covered_iff.mp hneither.1), if_neg (mt hrule.mp hneither.2)]

instance (o : Obligation) : Decidable o.Ranked :=
  inferInstanceAs (Decidable (_ ∨ _))

/-- Every outcome has the priority of its kind. -/
theorem ranked_resolve (h : Hierarchy) (options : ObligationOptions) (ref : MethodRef) :
    (Obligation.resolve h options ref).Ranked := by
  have hdeclared : ∀ o ∈ Obligation.expressible, ∀ own : Bool,
      ({ o with direct := o.direct && own } : Obligation).Ranked := by decide
  rw [resolve_eq]
  cases hfirst : (walk h ref).findSome? (given? ref) with
  | some o =>
    obtain ⟨c, -, hgiven⟩ := List.exists_of_findSome?_eq_some hfirst
    obtain ⟨o, ho, rfl⟩ := Option.map_eq_some_iff.mp hgiven
    exact hdeclared o (Obligation.mem_expressible_of_declaredBy? ho) _
  | none =>
    rw [Option.getD_none]
    split
    · decide
    · split <;> decide

end ReturnAudit
