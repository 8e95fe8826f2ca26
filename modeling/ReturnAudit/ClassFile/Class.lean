import ReturnAudit.ClassFile.Annotation
import ReturnAudit.ClassFile.Code

/-!
# Classes

A class file names its class, the class it extends, the interfaces it implements, and lists its
fields and methods. Names are dotted here. Whatever follows the class attributes is not looked at.
-/

namespace ReturnAudit.ClassFile

/-- The bit of what is public. -/
def accPublic : UInt16 := 0x0001

/-- The bit of what belongs to a class and not to its instances. -/
def accStatic : UInt16 := 0x0008

/-- The bit that every class sets. -/
def accSuper : UInt16 := 0x0020

/-- The bit of methods that only pass a call on. -/
def accBridge : UInt16 := 0x0040

/-- The bit of methods that are not written in bytecode. -/
def accNative : UInt16 := 0x0100

/-- The bit of interfaces. -/
def accInterface : UInt16 := 0x0200

/-- The bit of what is abstract. -/
def accAbstract : UInt16 := 0x0400

/-- The bit of what no source declares. -/
def accSynthetic : UInt16 := 0x1000

/-- Whether a bit is set in some access flags. -/
def hasFlag (access flag : UInt16) : Bool :=
  access &&& flag != 0

/-- A declared field. -/
structure Field where
  /-- The access flags. -/
  access : UInt16
  /-- The name. -/
  name : Bytes
  /-- The type. -/
  descriptor : Bytes
  /-- The annotations in the order of the class file. -/
  annotations : List Annotation

/-- Whether the field is static. -/
def Field.isStatic (f : Field) : Bool :=
  hasFlag f.access accStatic

/-- A declared method. -/
structure Method where
  /-- The access flags. -/
  access : UInt16
  /-- The name. -/
  name : Bytes
  /-- The types of the parameters and of the result. -/
  descriptor : Bytes
  /-- The annotations in the order of the class file. -/
  annotations : List Annotation
  /-- The body; abstract and native methods have none. -/
  code : Option Code

namespace Method

/-- Whether the method is static. -/
def isStatic (m : Method) : Bool :=
  hasFlag m.access accStatic

/-- The instructions of the body. -/
def instructions (m : Method) : List Instruction :=
  match m.code with
  | some code => code.instructions
  | none => []

/-- Whether there is an instruction to execute. -/
def hasBody (m : Method) : Bool :=
  !m.instructions.isEmpty

end Method

/-- A class. -/
structure Class where
  /-- The major version of the format. -/
  major : Nat
  /-- The minor version of the format. -/
  minor : Nat
  /-- The access flags. -/
  access : UInt16
  /-- The dotted name. -/
  name : Bytes
  /-- The dotted name of the class it extends; empty when there is none. -/
  super : Bytes
  /-- The dotted names of the interfaces in the order of declaration. -/
  interfaces : List Bytes
  /-- The fields in the order of declaration. -/
  fields : List Field
  /-- The methods in the order of declaration. -/
  methods : List Method
  /-- The annotations in the order of the class file. -/
  annotations : List Annotation
  /-- The name of the source file; empty when it is not recorded. -/
  sourceFile : Bytes
  /-- The constants. -/
  pool : Pool

namespace Class

/-- Whether the class is an interface. -/
def isInterface (c : Class) : Bool :=
  hasFlag c.access accInterface

/-- The first method with a given name and descriptor. -/
def method? (c : Class) (name descriptor : Bytes) : Option Method :=
  c.methods.find? fun m => m.name = name && m.descriptor = descriptor

end Class

/-- A field or method as it stands in the class file. -/
structure Member where
  /-- The access flags. -/
  access : UInt16
  /-- The name. -/
  name : Bytes
  /-- The type. -/
  descriptor : Bytes
  /-- The attributes in the order of the class file. -/
  attributes : List Attribute
  /-- The annotations among the attributes. -/
  annotations : List Annotation

/-- The annotations in an attribute, if it holds annotations. -/
def annotationsIn (pool : Pool) (a : Attribute) : Except ReadError (List Annotation) :=
  if a.name = Bytes.ofString "RuntimeVisibleAnnotations" then readAnnotations pool true a.info
  else if a.name = Bytes.ofString "RuntimeInvisibleAnnotations" then
    readAnnotations pool false a.info
  else pure []

/-- The annotations in those attributes that hold annotations. -/
def annotationsOf (pool : Pool) (attributes : List Attribute) :
    Except ReadError (List Annotation) := do
  let lists ← attributes.mapM (annotationsIn pool)
  pure lists.flatten

/-- Reads a field or method. -/
def readMember (pool : Pool) : Reader Member := do
  let access ← Reader.u2
  let nameIndex ← Reader.u2
  let descriptorIndex ← Reader.u2
  let name ← Reader.look (locate .memberNameText (pool.utf8 nameIndex))
  let descriptor ← Reader.look (locate (.memberDescriptor name) (pool.utf8 descriptorIndex))
  let attributes ← Reader.within (.memberAttributes name) (readAttributes pool)
  let annotations ← Reader.look <|
    locate (.memberAnnotations name descriptor) (annotationsOf pool attributes)
  pure ⟨access, name, descriptor, attributes, annotations⟩

/-- Reads the `i`-th field. -/
def readField (pool : Pool) (i : Nat) : Reader Field := do
  let m ← Reader.within (.field i) (readMember pool)
  pure ⟨m.access, m.name, m.descriptor, m.annotations⟩

/-- Reads a counted list of fields. -/
def readFields (pool : Pool) : Reader (List Field) := do
  let count ← Reader.within .fieldCount Reader.u2
  Reader.many count.toNat (readField pool)

/-- The bodies in those attributes of a method that hold one. -/
def bodiesOf (pool : Pool) (m : Member) : Except ReadError (List Code) :=
  (m.attributes.filter fun a => a.name = Bytes.ofString "Code").mapM fun a =>
    locate (.methodCode m.name m.descriptor) (readCode pool a.info)

/-- Reads the `i`-th method. Of several bodies the last one stands. -/
def readMethod (pool : Pool) (i : Nat) : Reader Method := do
  let m ← Reader.within (.method i) (readMember pool)
  let bodies ← Reader.look (bodiesOf pool m)
  pure ⟨m.access, m.name, m.descriptor, m.annotations, bodies.getLast?⟩

/-- Reads a counted list of methods. -/
def readMethods (pool : Pool) : Reader (List Method) := do
  let count ← Reader.within .methodCount Reader.u2
  Reader.many count.toNat (readMethod pool)

/-- What the class attributes contribute: the source file and the annotations. -/
def classAttribute (pool : Pool) (found : Bytes × List Annotation) (a : Attribute) :
    Except ReadError (Bytes × List Annotation) := do
  if a.name = Bytes.ofString "SourceFile" then
    let index ← locate .sourceFile (Reader.run Reader.u2 a.info)
    let name ← locate .sourceFileName (pool.utf8 index)
    pure (name, found.2)
  else
    let annotations ← annotationsOf pool [a]
    pure (found.1, found.2 ++ annotations)

/-- Reads the dotted name of the `i`-th interface of a class. -/
def readInterface (pool : Pool) (name : Bytes) (i : Nat) : Reader Bytes := do
  let index ← Reader.within (.interface i) Reader.u2
  Descriptor.dotted <$> Reader.look (locate (.interfaceName i name) (pool.className index))

/-- The bytes with which every class file starts. -/
def magic : Nat := 0xcafebabe

/-- Reads what follows the constants of a class file of some version. -/
def readDeclaration (major minor : Nat) (pool : Pool) : Reader Class := do
  let access ← Reader.within .accessFlags Reader.u2
  let nameIndex ← Reader.within .thisClass Reader.u2
  let name ← Descriptor.dotted <$> Reader.look (locate .thisClassName (pool.className nameIndex))
  let superIndex ← Reader.within .superClass Reader.u2
  let super ← optionalClassName pool (.superClassName name) superIndex
  let count ← Reader.within .interfaceCount Reader.u2
  let interfaces ← Reader.many count.toNat (readInterface pool name)
  let fields ← Reader.within (.className name) (readFields pool)
  let methods ← Reader.within (.className name) (readMethods pool)
  let attributes ← Reader.within (.className name) <|
    Reader.within .classAttributes (readAttributes pool)
  let (sourceFile, annotations) ← Reader.look <| locate (.className name) <|
    attributes.foldlM (classAttribute pool) ([], [])
  pure { major, minor, access, name, super, interfaces, fields, methods, annotations, sourceFile,
         pool }

/-- Reads the class that a file starts with. -/
def readClass : Reader Class := do
  let found ← Reader.within .magic Reader.u4
  if found.toNat ≠ magic then Reader.fail (.badMagic found.toNat)
  let minor ← Reader.within .minorVersion Reader.u2
  let major ← Reader.within .majorVersion Reader.u2
  let pool ← Reader.within .constantPool Pool.read
  readDeclaration major.toNat minor.toNat pool

/-- The class in a class file. -/
def parse (data : Bytes) : Except ReadError Class :=
  Reader.run readClass data

end ReturnAudit.ClassFile
