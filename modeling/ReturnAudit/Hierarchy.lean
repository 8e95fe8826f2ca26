import ReturnAudit.ClassFile.Class

/-!
# The class hierarchy

The classes of a run by name. When a name occurs more than once the first class stands. A class can
mention classes that are not known, and the mentions can form cycles.
-/

namespace ReturnAudit

/-- The known classes, each name once. -/
structure Hierarchy where
  /-- The classes in the order of their first occurrence. -/
  classes : List ClassFile.Class

/-- The first class of each name, without the names in `seen`. -/
def firstOfEachName (seen : List Bytes) : List ClassFile.Class → List ClassFile.Class
  | [] => []
  | c :: rest =>
    if seen.contains c.name then firstOfEachName seen rest
    else c :: firstOfEachName (c.name :: seen) rest

namespace Hierarchy

/-- The hierarchy of a list of classes. -/
def ofClasses (classes : List ClassFile.Class) : Hierarchy :=
  ⟨firstOfEachName [] classes⟩

/-- The class with a given name. -/
def find? (h : Hierarchy) (name : Bytes) : Option ClassFile.Class :=
  h.classes.find? fun c => c.name = name

/-- The number of classes. -/
def size (h : Hierarchy) : Nat :=
  h.classes.length

/-- The classes that `c` extends, nearest first, and the names seen on the way. The chain ends at a
class that extends none, an unknown class or a name seen before. -/
def superChain (h : Hierarchy) : (bound : Nat) → (seen : List Bytes) → ClassFile.Class →
    List ClassFile.Class × List Bytes
  | 0, seen, _ => ([], seen)
  | bound + 1, seen, c =>
    if c.super.isEmpty || seen.contains c.super then ([], seen)
    else
      match h.find? c.super with
      | none => ([], c.super :: seen)
      | some next =>
        let (chain, seen) := superChain h bound (c.super :: seen) next
        (next :: chain, seen)

/-- The known classes among some names that were not seen before, in order, and the names seen
then. -/
def discover (h : Hierarchy) (seen : List Bytes) : List Bytes → List ClassFile.Class × List Bytes
  | [] => ([], seen)
  | name :: names =>
    if seen.contains name then discover h seen names
    else
      let (found, seen) := discover h (name :: seen) names
      match h.find? name with
      | some c => (c :: found, seen)
      | none => (found, seen)

/-- The interfaces of the classes of a level, the interfaces of those, and so on level by level. -/
def interfaceLevels (h : Hierarchy) : (bound : Nat) → (seen : List Bytes) →
    List ClassFile.Class → List ClassFile.Class
  | 0, _, _ => []
  | bound + 1, seen, level =>
    if level.isEmpty then []
    else
      let (next, seen) := discover h seen (level.flatMap (·.interfaces))
      next ++ interfaceLevels h bound seen next

/-- The known ancestors of a class: first the chain of the classes it extends, then the interfaces
of all of these level by level in the order of declaration. No class occurs twice. -/
def ancestors (h : Hierarchy) (name : Bytes) : List ClassFile.Class :=
  match h.find? name with
  | none => []
  | some start =>
    let (chain, seen) := superChain h (h.size + 1) [name] start
    chain ++ interfaceLevels h (h.size + 1) seen (start :: chain)

end Hierarchy

end ReturnAudit
