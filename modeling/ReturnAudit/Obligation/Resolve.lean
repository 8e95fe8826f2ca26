import ReturnAudit.Hierarchy
import ReturnAudit.Obligation.Basic
import ReturnAudit.Obligation.Catalog

/-!
# Resolving obligations

The obligation of a called method comes from the first class that declares one, starting with the
called class and going on to its ancestors. When no class does, the catalog decides, and last
whether every result has to be used.
-/

namespace ReturnAudit

open ClassFile

/-- The annotation classes that express an obligation. -/
inductive ObligationMark where
  /-- The result has to be used unless an element says never. -/
  | jsr305
  /-- The result has to be used with the priority that an element gives. -/
  | findBugs
  /-- The result has to be used. -/
  | errorProne
  /-- The result may be ignored. -/
  | canIgnore
  deriving DecidableEq, Repr

/-- The mark with a given dotted class name. -/
def ObligationMark.ofClassName? (name : Bytes) : Option ObligationMark :=
  if name = Bytes.ofString "javax.annotation.CheckReturnValue" then some .jsr305
  else if name = Bytes.ofString "edu.umd.cs.findbugs.annotations.CheckReturnValue" then
    some .findBugs
  else if name = Bytes.ofString "com.google.errorprone.annotations.CheckReturnValue" then
    some .errorProne
  else if name = Bytes.ofString "com.google.errorprone.annotations.CanIgnoreReturnValue" then
    some .canIgnore
  else none

/-- The obligation for a level of severity. -/
private def ofLevel (level : Bytes) : Obligation :=
  if level = Bytes.ofString "IGNORE" then .ignore
  else if level = Bytes.ofString "HIGH" then .check Obligation.high
  else if level = Bytes.ofString "LOW" then .check Obligation.low
  else .check Obligation.medium

/-- The obligation that an annotation expresses, if it expresses one. -/
def Obligation.ofAnnotation? (a : Annotation) : Option Obligation :=
  (ObligationMark.ofClassName? a.className).map fun
    | .jsr305 =>
      match a.element? "when" with
      | some v => if v.enumName = Bytes.ofString "NEVER" then .ignore else .check medium
      | none => .check medium
    | .findBugs =>
      match (a.element? "priority").or (a.element? "confidence") with
      | some level => ofLevel level.enumName
      | none => .check medium
    | .errorProne => .check medium
    | .canIgnore => .ignore

/-- The obligations that annotations express. -/
def Obligation.expressible : List Obligation :=
  [.ignore, .check low, .check medium, .check high]

private theorem ofLevel_mem_expressible (level : Bytes) :
    ofLevel level ∈ Obligation.expressible := by
  unfold ofLevel
  split
  · decide
  · split
    · decide
    · split <;> decide

/-- What an annotation declares is one of the obligations that annotations can express. -/
theorem Obligation.mem_expressible_of_ofAnnotation? {a : Annotation} {o : Obligation}
    (h : ofAnnotation? a = some o) : o ∈ expressible := by
  obtain ⟨mark, -, rfl⟩ := Option.map_eq_some_iff.mp h
  cases mark with dsimp only
  | jsr305 =>
    split
    · split <;> decide
    · decide
  | findBugs =>
    split
    · exact ofLevel_mem_expressible _
    · decide
  | errorProne => decide
  | canIgnore => decide

/-- The obligation that the first of some annotations that express one expresses. -/
def Obligation.ofAnnotations? (annotations : List Annotation) : Option Obligation :=
  annotations.findSome? Obligation.ofAnnotation?

/-- Whether an obligation can be taken over from the class or from a general rule: the method gives
a result and is no initializer. -/
def takesGeneralRule (name signature : Bytes) : Bool :=
  !MethodRef.isInitializerName name && Descriptor.returnType signature ≠ Bytes.ofString "V"

/-- The obligation that a class declares for a method: on the method itself, or else on the class
for all methods that give a result. -/
def Obligation.declaredBy? (c : ClassFile.Class) (name signature : Bytes) : Option Obligation :=
  match c.method? name signature with
  | none => none
  | some m =>
    match ofAnnotations? m.annotations with
    | some o => some o
    | none => if takesGeneralRule name signature then ofAnnotations? c.annotations else none

/-- What a class declares for a method is an obligation that annotations can express. -/
theorem Obligation.mem_expressible_of_declaredBy? {c : ClassFile.Class} {name signature : Bytes}
    {o : Obligation} (h : declaredBy? c name signature = some o) : o ∈ expressible := by
  have hfirst : ∀ {annotations : List Annotation} {o : Obligation},
      ofAnnotations? annotations = some o → o ∈ expressible := by
    intro annotations o ho
    obtain ⟨a, -, ha⟩ := List.exists_of_findSome?_eq_some ho
    exact mem_expressible_of_ofAnnotation? ha
  unfold declaredBy? at h
  split at h
  · cases h
  · split at h
    · next ho =>
      rw [← Option.some.inj h]
      exact hfirst ho
    · split at h
      · exact hfirst h
      · cases h

/-- What obligations are resolved from. -/
structure ObligationOptions where
  /-- Further catalog entries. -/
  catalog : List CatalogEntry := []
  /-- Leaves out the standard catalog. -/
  noDefaultCatalog : Bool := false
  /-- Every result has to be used unless declared otherwise. -/
  checkAll : Bool := false
  deriving DecidableEq, Repr, Inhabited

/-- The standard catalog, unless left out, and the further entries. -/
def ObligationOptions.fullCatalog (opts : ObligationOptions) : List CatalogEntry :=
  (if opts.noDefaultCatalog then [] else CatalogEntry.standard) ++ opts.catalog

/-- The ancestors that an obligation can be inherited from; initializers inherit none. -/
def inheritedFrom (h : Hierarchy) (ref : MethodRef) : List ClassFile.Class :=
  if ref.isConstructor then [] else h.ancestors ref.owner

/-- The obligation of a called method. -/
def Obligation.resolve (h : Hierarchy) (opts : ObligationOptions) (ref : MethodRef) : Obligation :=
  match (h.find? ref.owner).bind fun c => declaredBy? c ref.name ref.signature with
  | some o => o
  | none =>
    let ancestors := inheritedFrom h ref
    match ancestors.findSome? fun c => declaredBy? c ref.name ref.signature with
    | some o => { o with direct := false }
    | none =>
      let owners := ref.owner :: ancestors.map (·.name)
      if owners.any fun owner => CatalogEntry.covered opts.fullCatalog owner ref then
        .inherited low
      else if opts.checkAll && takesGeneralRule ref.name ref.signature then .inherited low
      else .unset

end ReturnAudit
