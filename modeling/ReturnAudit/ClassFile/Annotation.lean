import ReturnAudit.ClassFile.Constant
import ReturnAudit.ClassFile.Descriptor

/-!
# Annotations

An annotation has a type and named elements. An element is a constant, an enum constant, a class, a
nested annotation or an array of elements, to any depth. When a name is given twice the later
element stands.
-/

namespace ReturnAudit.ClassFile

mutual

/-- The value of an annotation element. -/
inductive ElementValue where
  /-- A string, or a number in decimal, with the tag of its type. -/
  | const (tag : UInt8) (text : Bytes)
  /-- An enum constant with the descriptor of its type. -/
  | enumConst (type name : Bytes)
  /-- A class by its descriptor. -/
  | classInfo (descriptor : Bytes)
  /-- A nested annotation. -/
  | nested (inner : Annotation)
  /-- An array. -/
  | array (values : List ElementValue)

/-- An annotation: the descriptor of its type, whether it is kept at run time, and its elements. -/
inductive Annotation where
  | mk (type : Bytes) (visible : Bool) (elements : List (Bytes × ElementValue))

end

namespace ElementValue

/-- The tag that marks each kind of value. -/
def tag : ElementValue → UInt8
  | const t _ => t
  | enumConst .. => 101
  | classInfo _ => 99
  | nested _ => 64
  | array _ => 91

/-- The text of a constant; other values have none. -/
def constText : ElementValue → Bytes
  | const _ text => text
  | _ => []

/-- The name of an enum constant; other values have none. -/
def enumName : ElementValue → Bytes
  | enumConst _ name => name
  | _ => []

/-- The values in an array; other values hold none. -/
def items : ElementValue → List ElementValue
  | array values => values
  | _ => []

end ElementValue

namespace Annotation

/-- The descriptor of the annotation's type. -/
def type : Annotation → Bytes
  | mk t _ _ => t

/-- Whether the annotation is kept at run time. -/
def visible : Annotation → Bool
  | mk _ v _ => v

/-- The elements, each name once. -/
def elements : Annotation → List (Bytes × ElementValue)
  | mk _ _ es => es

/-- The dotted name of the annotation's type. -/
def className (a : Annotation) : Bytes :=
  Descriptor.dotted (Descriptor.className a.type)

/-- The element with a given name. -/
def element? (a : Annotation) (name : Bytes) : Option ElementValue :=
  a.elements.lookup name

/-- The first annotation whose type has a given dotted name. -/
def find? (annotations : List Annotation) (name : Bytes) : Option Annotation :=
  annotations.find? fun a => a.className = name

end Annotation

/-- The elements with one more, which replaces an element of the same name. -/
def putElement (name : Bytes) (value : ElementValue) :
    List (Bytes × ElementValue) → List (Bytes × ElementValue)
  | [] => [(name, value)]
  | (n, v) :: rest =>
    if n = name then (n, value) :: rest else (n, v) :: putElement name value rest

/-- The elements of a list of named values in which the later of two equal names stands. -/
def collectElements (pairs : List (Bytes × ElementValue)) : List (Bytes × ElementValue) :=
  pairs.foldl (fun es (name, value) => putElement name value es) []

/-- The tags of the constants that a number can be taken from. -/
def numberTags : List Nat := [3, 5, 4, 6]

/-- A numeric constant in decimal: integers and longs with their sign, floats and doubles as the
number that their bits form. -/
def numberText (pool : Pool) (index : UInt16) : Except ReadError Bytes := do
  match ← pool.get index numberTags with
  | .integer bits => pure (Numeral.ofInt bits.toInt32.toInt)
  | .long bits => pure (Numeral.ofInt bits.toInt64.toInt)
  | .float bits => pure (Numeral.ofNat bits.toNat)
  | .double bits => pure (Numeral.ofNat bits.toNat)
  | c => .error (.of (.wrongTag index.toNat c.tag numberTags))

/-- Whether a tag marks one of the eight primitive types. -/
def isPrimitiveTag (tag : UInt8) : Bool :=
  (Bytes.ofString "BCISZJFD").contains tag

/-- Reads a name and the value that belongs to it. -/
def readNamed (pool : Pool) (readValue : Reader ElementValue) : Reader (Bytes × ElementValue) := do
  let nameIndex ← Reader.u2
  let name ← Reader.look (locate .elementName (pool.utf8 nameIndex))
  let value ← Reader.within (.element name) readValue
  pure (name, value)

mutual

/-- Reads an element value. Every level of nesting takes at least one byte, so a bound of as many
levels as there are bytes left is never reached before the data ends. -/
def readElementValue (pool : Pool) (visible : Bool) : (levels : Nat) → Reader ElementValue
  | 0 => fun c => .error (.of (.truncated 1 c.offset))
  | levels + 1 => do
    let tag ← Reader.u1
    if tag = 115 then
      let index ← Reader.u2
      let text ← Reader.look (pool.utf8 index)
      pure (.const tag text)
    else if isPrimitiveTag tag then
      let index ← Reader.u2
      let text ← Reader.look (numberText pool index)
      pure (.const tag text)
    else if tag = 101 then
      let typeIndex ← Reader.u2
      let nameIndex ← Reader.u2
      let type ← Reader.look (pool.utf8 typeIndex)
      let name ← Reader.look (pool.utf8 nameIndex)
      pure (.enumConst type name)
    else if tag = 99 then
      let index ← Reader.u2
      let descriptor ← Reader.look (pool.utf8 index)
      pure (.classInfo descriptor)
    else if tag = 64 then
      let inner ← readAnnotationBody pool visible levels
      pure (.nested inner)
    else if tag = 91 then
      let count ← Reader.u2
      let values ← Reader.many count.toNat fun _ => readElementValue pool visible levels
      pure (.array values)
    else Reader.fail (.unknownElementTag tag)

/-- Reads an annotation that nests at most `levels` deep. -/
def readAnnotationBody (pool : Pool) (visible : Bool) : (levels : Nat) → Reader Annotation
  | 0 => fun c => .error (.of (.truncated 2 c.offset))
  | levels + 1 => do
    let typeIndex ← Reader.u2
    let type ← Reader.look (locate .annotationType (pool.utf8 typeIndex))
    let count ← Reader.u2
    let pairs ← Reader.many count.toNat fun _ =>
      readNamed pool (readElementValue pool visible levels)
    pure (.mk type visible (collectElements pairs))

end

/-- Reads the annotations that an attribute holds. -/
def readAnnotations (pool : Pool) (visible : Bool) (info : Bytes) :
    Except ReadError (List Annotation) :=
  Reader.run (do
    let count ← Reader.within .annotationCount Reader.u2
    Reader.many count.toNat fun i =>
      Reader.within (.annotationAt i) (readAnnotationBody pool visible info.length)) info

end ReturnAudit.ClassFile
