import ReturnAudit.Obligation.Resolve

/-!
# Obligations do not look at bodies

What a class owes to its callers is told by its name, by the classes it mentions and by the
annotations of its methods. So the walk through a hierarchy goes the same way, and resolves the same
obligations, when the bodies of all methods are taken away.
-/

namespace ReturnAudit

open ClassFile (Class Method)

namespace ClassFile

/-- A method without its body. -/
def Method.withoutBody (m : Method) : Method :=
  { m with code := none }

/-- A class without the bodies of its methods. -/
def Class.withoutBodies (c : Class) : Class :=
  { c with methods := c.methods.map Method.withoutBody }

end ClassFile

/-- Which class is the first of its name does not depend on bodies. -/
theorem firstOfEachName_map_withoutBodies (seen : List Bytes) (classes : List ClassFile.Class) :
    firstOfEachName seen (classes.map Class.withoutBodies) =
      (firstOfEachName seen classes).map Class.withoutBodies := by
  induction classes generalizing seen with
  | nil => rfl
  | cons c classes ih =>
    have hname : c.withoutBodies.name = c.name := rfl
    rw [List.map_cons, firstOfEachName, firstOfEachName, hname]
    split
    · exact ih seen
    · rw [List.map_cons, ih]

namespace Hierarchy

/-- A hierarchy without bodies. -/
def withoutBodies (h : Hierarchy) : Hierarchy :=
  ⟨h.classes.map Class.withoutBodies⟩

/-- A hierarchy of classes without bodies is the hierarchy without bodies. -/
theorem ofClasses_map_withoutBodies (classes : List ClassFile.Class) :
    ofClasses (classes.map Class.withoutBodies) = (ofClasses classes).withoutBodies :=
  congrArg Hierarchy.mk (firstOfEachName_map_withoutBodies [] classes)

/-- It has as many classes. -/
theorem size_withoutBodies (h : Hierarchy) : h.withoutBodies.size = h.size :=
  List.length_map _

/-- It finds the same classes, without bodies. -/
theorem find?_withoutBodies (h : Hierarchy) (name : Bytes) :
    h.withoutBodies.find? name = (h.find? name).map Class.withoutBodies := by
  unfold find? withoutBodies
  rw [List.find?_map]
  rfl

/-- A chain goes through the same classes. -/
theorem superChain_withoutBodies (h : Hierarchy) (bound : Nat) (seen : List Bytes)
    (c : ClassFile.Class) :
    h.withoutBodies.superChain bound seen c.withoutBodies =
      (h.superChain bound seen c).map (List.map Class.withoutBodies) id := by
  induction bound generalizing seen c with
  | zero => rfl
  | succ bound ih =>
    have hsuper : c.withoutBodies.super = c.super := rfl
    rw [superChain, superChain, hsuper, find?_withoutBodies]
    split
    · rfl
    · cases h.find? c.super with
      | none => rfl
      | some next =>
        simp only [Option.map_some, ih]
        rfl

/-- The same classes are discovered. -/
theorem discover_withoutBodies (h : Hierarchy) (seen names : List Bytes) :
    h.withoutBodies.discover seen names =
      (h.discover seen names).map (List.map Class.withoutBodies) id := by
  induction names generalizing seen with
  | nil => rfl
  | cons name names ih =>
    rw [discover, discover, find?_withoutBodies]
    split
    · exact ih seen
    · rw [ih]
      cases h.find? name with
      | none => rfl
      | some c => rfl

/-- The levels hold the same classes. -/
theorem interfaceLevels_withoutBodies (h : Hierarchy) (bound : Nat) (seen : List Bytes)
    (level : List ClassFile.Class) :
    h.withoutBodies.interfaceLevels bound seen (level.map Class.withoutBodies) =
      (h.interfaceLevels bound seen level).map Class.withoutBodies := by
  induction bound generalizing seen level with
  | zero => rfl
  | succ bound ih =>
    have hmentions : (level.map Class.withoutBodies).flatMap (·.interfaces) =
        level.flatMap (·.interfaces) := by
      rw [List.flatMap_map]
      rfl
    rw [interfaceLevels, interfaceLevels, hmentions, discover_withoutBodies, List.isEmpty_map]
    split
    · rfl
    · dsimp only [Prod.map]
      rw [ih, List.map_append]
      rfl

/-- The ancestors of a class are the same, without their bodies. -/
theorem ancestors_withoutBodies (h : Hierarchy) (name : Bytes) :
    h.withoutBodies.ancestors name = (h.ancestors name).map Class.withoutBodies := by
  unfold ancestors
  rw [find?_withoutBodies, size_withoutBodies]
  cases h.find? name with
  | none => rfl
  | some start =>
    simp only [Option.map_some, superChain_withoutBodies, Prod.map_fst, Prod.map_snd, id_eq]
    rw [← List.map_cons, interfaceLevels_withoutBodies, List.map_append]

end Hierarchy

namespace Obligation

/-- What a class declares for a method does not depend on bodies. -/
theorem declaredBy?_withoutBodies (c : ClassFile.Class) (name signature : Bytes) :
    declaredBy? c.withoutBodies name signature = declaredBy? c name signature := by
  have hmethod : c.withoutBodies.method? name signature =
      (c.method? name signature).map Method.withoutBody := by
    unfold Class.method? Class.withoutBodies
    rw [List.find?_map]
    rfl
  unfold declaredBy?
  rw [hmethod]
  cases c.method? name signature with
  | none => rfl
  | some m => rfl

/-- Obligations do not depend on bodies. -/
theorem resolve_withoutBodies (h : Hierarchy) (options : ObligationOptions) :
    resolve h.withoutBodies options = resolve h options := by
  funext ref
  have hinherited : inheritedFrom h.withoutBodies ref =
      (inheritedFrom h ref).map Class.withoutBodies := by
    unfold inheritedFrom
    split
    · rfl
    · exact h.ancestors_withoutBodies ref.owner
  have hdeclared : (fun c => declaredBy? c.withoutBodies ref.name ref.signature) =
      fun c => declaredBy? c ref.name ref.signature :=
    funext fun c => declaredBy?_withoutBodies c ref.name ref.signature
  have howner : ((h.find? ref.owner).map Class.withoutBodies).bind
      (fun c => declaredBy? c ref.name ref.signature) =
        (h.find? ref.owner).bind fun c => declaredBy? c ref.name ref.signature := by
    rw [Option.bind_map]
    exact congrArg _ hdeclared
  have hancestors : ((inheritedFrom h ref).map Class.withoutBodies).findSome?
      (fun c => declaredBy? c ref.name ref.signature) =
        (inheritedFrom h ref).findSome? fun c => declaredBy? c ref.name ref.signature := by
    rw [List.findSome?_map]
    exact congrArg (fun f => (inheritedFrom h ref).findSome? f) hdeclared
  have hnames : ((inheritedFrom h ref).map Class.withoutBodies).map (·.name) =
      (inheritedFrom h ref).map (·.name) := List.map_map
  unfold resolve
  rw [h.find?_withoutBodies, howner, hinherited]
  dsimp only
  rw [hancestors, hnames]

/-- Classes that differ in bodies only resolve the same obligations. -/
theorem resolve_ofClasses_of_withoutBodies {classes classes' : List ClassFile.Class}
    (h : classes.map Class.withoutBodies = classes'.map Class.withoutBodies)
    (options : ObligationOptions) :
    resolve (.ofClasses classes) options = resolve (.ofClasses classes') options := by
  rw [← resolve_withoutBodies, ← Hierarchy.ofClasses_map_withoutBodies, h,
    Hierarchy.ofClasses_map_withoutBodies, resolve_withoutBodies]

end Obligation

end ReturnAudit
