import ReturnAudit.Assembly.Description
import ReturnAudit.Assembly.Line
import ReturnAudit.ClassFile.Class

/-!
# Encoding classes

The class file of a class description, in version 52 of the format. The constant pool grows while
the rest is written and is put in front of it at the end.
-/

namespace ReturnAudit.Assembly

/-- A method that could not be encoded. -/
structure EncodeError where
  /-- The name of the method. -/
  name : Bytes
  /-- Its descriptor. -/
  descriptor : Bytes
  /-- What is wrong with its code. -/
  cause : AssemblyError
  deriving DecidableEq, Repr

/-- The wording of the error. -/
def EncodeError.message (e : EncodeError) : Bytes :=
  "method " ++ e.name ++ e.descriptor ++ ": " ++ e.cause.message

/-- A part of the class file that only adds constants. -/
abbrev Encoder := StateM PoolBuilder

/-- The two bytes of a requested index. -/
def ref (request : Encoder UInt16) : Encoder Bytes := do
  let i ← request
  pure (beShort i.toNat)

/-- An attribute; its name is filed after the constants of its contents. -/
def encodeAttribute (name : String) (info : Bytes) : Encoder Bytes := do
  let n ← ref (PoolBuilder.utf8 name)
  pure (n ++ beWord info.length ++ info)

/-- Named elements ordered by name. -/
def byName (elements : List (Bytes × α)) : List (Bytes × α) :=
  elements.mergeSort fun a b => Bytes.le a.1 b.1

/-- A string value. -/
def encodeString (value : Bytes) : Encoder Bytes := do
  let v ← ref (PoolBuilder.utf8 value)
  pure (115 :: v)

/-- An array of strings. -/
def encodeArray (values : List Bytes) : Encoder Bytes := do
  let vs ← values.mapM encodeString
  pure (91 :: beShort values.length ++ vs.flatten)

/-- An enum constant. -/
def encodeEnum (value : EnumValue) : Encoder Bytes := do
  let t ← ref (PoolBuilder.utf8 (Descriptor.ofClass value.type))
  let c ← ref (PoolBuilder.utf8 value.const)
  pure (101 :: t ++ c)

/-- A name and the value that belongs to it. -/
def encodeNamed (encodeValue : α → Encoder Bytes) (element : Bytes × α) : Encoder Bytes := do
  let n ← ref (PoolBuilder.utf8 element.1)
  let v ← encodeValue element.2
  pure (n ++ v)

/-- An annotation: the string elements first, then the arrays, then the enum constants, each group
ordered by name. -/
def encodeAnnotationBody (a : Annotation) : Encoder Bytes := do
  let type ← ref (PoolBuilder.utf8 (Descriptor.ofClass a.type))
  let strings ← (byName a.strings).mapM (encodeNamed encodeString)
  let arrays ← (byName a.arrays).mapM (encodeNamed encodeArray)
  let enums ← (byName a.enums).mapM (encodeNamed encodeEnum)
  pure (type ++ beShort (a.strings.length + a.arrays.length + a.enums.length)
    ++ strings.flatten ++ arrays.flatten ++ enums.flatten)

/-- The attribute that holds some annotations, unless there are none. -/
def encodeAnnotationList (name : String) (annotations : List Annotation) :
    Encoder (List Bytes) :=
  if annotations.isEmpty then pure []
  else do
    let bodies ← annotations.mapM encodeAnnotationBody
    let written ← encodeAttribute name (beShort annotations.length ++ bodies.flatten)
    pure [written]

/-- The attributes that hold annotations: one for those kept at run time, one for the others. -/
def encodeAnnotations (annotations : List Annotation) : Encoder (List Bytes) := do
  let visible ← encodeAnnotationList "RuntimeVisibleAnnotations"
    (annotations.filter fun a => !a.invisible)
  let invisible ← encodeAnnotationList "RuntimeInvisibleAnnotations"
    (annotations.filter (·.invisible))
  pure (visible ++ invisible)

/-- The index of a class, or zero in place of an empty name. -/
def encodeOptionalClass (name : Bytes) : Encoder Bytes :=
  if name.isEmpty then pure (beShort 0) else ref (PoolBuilder.classRef name)

/-- A protected range with its handler. -/
def encodeHandler (h : Handler) : Encoder Bytes := do
  let catchType ← encodeOptionalClass h.catchType
  pure (lowShort h.start ++ lowShort h.stop ++ lowShort h.handler ++ catchType)

/-- A line table that gives consecutive lines to consecutive instructions. -/
def encodeLines (firstLine : Int) (pcs : List Nat) : Bytes :=
  beShort pcs.length ++
    (pcs.zipIdx.flatMap fun (pc, i) => beShort pc ++ lowShort (firstLine + i))

/-- The attributes of a body: a line table when the first line is known. -/
def encodeLineTable (firstLine : Int) (pcs : List Nat) : Encoder Bytes :=
  if 0 < firstLine then do
    let lines ← encodeAttribute "LineNumberTable" (encodeLines firstLine pcs)
    pure (beShort 1 ++ lines)
  else pure (beShort 0)

/-- The attribute that holds the body of a method. -/
def encodeCode (m : Method) (code : Bytes) (pcs : List Nat) : Encoder Bytes := do
  let handlers ← m.handlers.mapM encodeHandler
  let attributes ← encodeLineTable m.firstLine pcs
  encodeAttribute "Code" (beShort 16 ++ beShort 16 ++ beWord code.length ++ code
    ++ beShort m.handlers.length ++ handlers.flatten ++ attributes)

/-- The access flags of a method. -/
def methodAccess (m : Method) : UInt16 :=
  ClassFile.accPublic ||| (if m.static then ClassFile.accStatic else 0) |||
    (if !m.code.isEmpty then 0
      else if m.native then ClassFile.accNative else ClassFile.accAbstract)

/-- A part that cannot fail among parts that can. -/
def lift (part : Encoder α) : StateT PoolBuilder (Except EncodeError) α :=
  fun p => .ok (part p)

/-- The assembled code of a method and the position of each instruction. -/
def assembleCode (m : Method) : StateT PoolBuilder (Except EncodeError) (Bytes × List Nat) :=
  fun p => (assemble m.code p).mapError fun cause => EncodeError.mk m.name m.descriptor cause

/-- The attribute that holds the body of a method, unless the method has no code. -/
def encodeMethodCode (m : Method) : StateT PoolBuilder (Except EncodeError) (List Bytes) :=
  if m.code.isEmpty then pure []
  else do
    let (code, pcs) ← assembleCode m
    let written ← lift (encodeCode m code pcs)
    pure [written]

/-- A method with its attributes. -/
def encodeMethod (m : Method) : StateT PoolBuilder (Except EncodeError) Bytes := do
  let name ← lift (ref (PoolBuilder.utf8 m.name))
  let descriptor ← lift (ref (PoolBuilder.utf8 m.descriptor))
  let code ← encodeMethodCode m
  let annotations ← lift (encodeAnnotations m.annotations)
  let attributes := code ++ annotations
  pure (beShort (methodAccess m).toNat ++ name ++ descriptor ++ beShort attributes.length
    ++ attributes.flatten)

/-- The access flags of a field. -/
def fieldAccess (f : Field) : UInt16 :=
  ClassFile.accPublic ||| (if f.static then ClassFile.accStatic else 0)

/-- A field, which has no attributes. -/
def encodeField (f : Field) : Encoder Bytes := do
  let name ← ref (PoolBuilder.utf8 f.name)
  let descriptor ← ref (PoolBuilder.utf8 f.descriptor)
  pure (beShort (fieldAccess f).toNat ++ name ++ descriptor ++ beShort 0)

/-- The root of all classes. -/
def rootClass : Bytes := "java.lang.Object"

/-- The class that a described class extends: the root class by default, which itself extends
none. -/
def superOf (c : Class) : Bytes :=
  if c.super.isEmpty && c.name ≠ rootClass then rootClass else c.super

/-- The access flags of a class. -/
def classAccess (c : Class) : UInt16 :=
  if c.isInterface then ClassFile.accPublic ||| ClassFile.accInterface ||| ClassFile.accAbstract
  else ClassFile.accPublic ||| ClassFile.accSuper

/-- Everything that follows the constant pool. -/
def encodeBody (c : Class) : StateT PoolBuilder (Except EncodeError) Bytes := do
  let name ← lift (ref (PoolBuilder.classRef c.name))
  let super ← lift (encodeOptionalClass (superOf c))
  let interfaces ← lift (c.interfaces.mapM fun i => ref (PoolBuilder.classRef i))
  let fields ← lift (c.fields.mapM encodeField)
  let methods ← c.methods.mapM encodeMethod
  let attributes ← lift (encodeAnnotations c.annotations)
  pure (beShort (classAccess c).toNat ++ name ++ super
    ++ beShort c.interfaces.length ++ interfaces.flatten
    ++ beShort c.fields.length ++ fields.flatten
    ++ beShort c.methods.length ++ methods.flatten
    ++ beShort attributes.length ++ attributes.flatten)

/-- The class file of a description. -/
def encode (c : Class) : Except EncodeError Bytes := do
  let (body, pool) ← encodeBody c PoolBuilder.empty
  pure (beWord ClassFile.magic ++ beShort 0 ++ beShort 52 ++ beShort (pool.size + 1)
    ++ pool.constants.flatMap encodeConstant ++ body)

end ReturnAudit.Assembly
