import ReturnAudit.ClassFile.Opcode

/-!
# Faults of class files

A class file that cannot be read is described by the fault itself and by the places that lead from
the outermost structure to it. The text of a fault names the places from the outside in.
-/

namespace ReturnAudit.ClassFile

/-- What is wrong with a class file. -/
inductive Fault where
  /-- Fewer bytes are left at an offset than are needed. -/
  | truncated (count offset : Nat)
  /-- The first four bytes are not those of a class file. -/
  | badMagic (found : Nat)
  /-- A constant has a tag that is not defined. -/
  | unknownTag (index tag : Nat)
  /-- A pool index is zero or too large. -/
  | indexOutOfRange (index : Nat)
  /-- A pool index leads to a constant of the wrong kind. -/
  | wrongTag (index tag : Nat) (wanted : List Nat)
  /-- An opcode is not defined. -/
  | undefinedOpcode (op : Opcode)
  /-- The upper bound of a table switch lies below its lower bound. -/
  | switchBounds (high low : Int)
  /-- A lookup switch has a negative number of pairs. -/
  | negativePairs (count : Int)
  /-- An opcode that has no wide form follows the wide prefix. -/
  | notWidened (op : Opcode)
  /-- An annotation element has a tag that is not defined. -/
  | unknownElementTag (tag : UInt8)
  deriving DecidableEq, Repr

/-- A place on the way into a class file. -/
inductive Place where
  | magic | minorVersion | majorVersion
  | constantPool | constantCount
  | constantTag (index : Nat) | utf8Length (index : Nat) | utf8Bytes (index : Nat)
  | constant (index : Nat)
  | memberOwner (index : Nat) | memberName (index : Nat)
  | accessFlags | thisClass | thisClassName | superClass | superClassName (name : Bytes)
  | interfaceCount | interface (index : Nat) | interfaceName (index : Nat) (name : Bytes)
  | className (name : Bytes)
  | fieldCount | field (index : Nat)
  | methodCount | method (index : Nat) | methodCode (name descriptor : Bytes)
  | memberAnnotations (name descriptor : Bytes)
  | memberNameText | memberDescriptor (name : Bytes) | memberAttributes (name : Bytes)
  | classAttributes | sourceFile | sourceFileName
  | attributeName | attribute (name : Bytes)
  | annotationCount | annotationAt (index : Nat) | annotationType
  | elementName | element (name : Bytes)
  | maxStack | maxLocals | codeLength | codeBytes
  | handlerCount | handler (index : Nat) | catchType (index : Nat)
  | codeAttributes | lineNumbers
  | instruction (op : Opcode) (pc : Nat)
  | skipping
  deriving DecidableEq, Repr

/-- A fault together with the places that lead to it, outermost first. -/
structure ReadError where
  /-- The way to the fault. -/
  path : List Place
  /-- The fault. -/
  fault : Fault
  deriving DecidableEq, Repr

/-- A number in a message. -/
private def num (n : Nat) : Bytes := Numeral.ofNat n

/-- The wording of a place. -/
def Place.message : Place → Bytes
  | .magic => "reading magic"
  | .minorVersion => "reading minor version"
  | .majorVersion => "reading major version"
  | .constantPool => "reading constant pool"
  | .constantCount => "reading constant pool count"
  | .constantTag i => "reading tag of constant " ++ num i
  | .utf8Length i => "reading utf8 length of constant " ++ num i
  | .utf8Bytes i => "reading utf8 constant " ++ num i
  | .constant i => "reading constant " ++ num i
  | .memberOwner i => "resolving owner of member " ++ num i
  | .memberName i => "resolving name of member " ++ num i
  | .accessFlags => "reading access flags"
  | .thisClass => "reading this class"
  | .thisClassName => "resolving this class"
  | .superClass => "reading super class"
  | .superClassName name => "resolving super class of " ++ name
  | .interfaceCount => "reading interface count"
  | .interface i => "reading interface " ++ num i
  | .interfaceName i name => "resolving interface " ++ num i ++ " of " ++ name
  | .className name => name
  | .fieldCount => "reading field count"
  | .field i => "field " ++ num i
  | .methodCount => "reading method count"
  | .method i => "method " ++ num i
  | .methodCode name descriptor => "method " ++ name ++ descriptor
  | .memberAnnotations name descriptor => name ++ descriptor
  | .memberNameText => "resolving member name"
  | .memberDescriptor name => "resolving descriptor of " ++ name
  | .memberAttributes name => "reading attributes of " ++ name
  | .classAttributes => "reading class attributes"
  | .sourceFile => "reading source file"
  | .sourceFileName => "resolving source file"
  | .attributeName => "resolving attribute name"
  | .attribute name => "reading attribute " ++ name
  | .annotationCount => "reading annotation count"
  | .annotationAt i => "annotation " ++ num i
  | .annotationType => "resolving annotation type"
  | .elementName => "resolving element name"
  | .element name => "element " ++ Quoted.text name
  | .maxStack => "reading max stack"
  | .maxLocals => "reading max locals"
  | .codeLength => "reading code length"
  | .codeBytes => "reading code"
  | .handlerCount => "reading exception table length"
  | .handler i => "reading exception table entry " ++ num i
  | .catchType i => "resolving catch type of entry " ++ num i
  | .codeAttributes => "reading code attributes"
  | .lineNumbers => "reading line numbers"
  | .instruction op pc => "decoding " ++ op.mnemonic ++ " at pc " ++ num pc
  | .skipping => "skipping"

/-- The wording of a fault. -/
def Fault.message : Fault → Bytes
  | .truncated count offset =>
    "reading " ++ num count ++ " bytes at offset " ++ num offset ++ ": unexpected end of data"
  | .badMagic found => "bad magic 0x" ++ Numeral.hexPadded 8 found
  | .unknownTag i tag => "constant " ++ num i ++ ": unknown tag " ++ num tag
  | .indexOutOfRange i => "constant index " ++ num i ++ " out of range"
  | .wrongTag i tag wanted =>
    "constant " ++ num i ++ " has tag " ++ num tag ++ ", want one of [" ++
      Bytes.join " " (wanted.map num) ++ "]"
  | .undefinedOpcode op => "invalid opcode 0x" ++ Numeral.hexPadded 2 op.code.toNat
  | .switchBounds high low =>
    "tableswitch high " ++ Numeral.ofInt high ++ " below low " ++ Numeral.ofInt low
  | .negativePairs count => "negative lookupswitch pair count " ++ Numeral.ofInt count
  | .notWidened op => "wide applied to " ++ op.mnemonic
  | .unknownElementTag tag => "unknown element value tag " ++ Quoted.char tag.toNat

/-- A fault without a place. -/
def ReadError.of (fault : Fault) : ReadError := ⟨[], fault⟩

/-- The same fault seen from one place further out. -/
def ReadError.within (place : Place) (e : ReadError) : ReadError :=
  { e with path := place :: e.path }

/-- The places from the outside in, and the fault. -/
def ReadError.message (e : ReadError) : Bytes :=
  e.path.foldr (fun place text => place.message ++ ": " ++ text) e.fault.message

/-- A result whose fault, if any, is seen from one place further out. -/
def locate (place : Place) : Except ReadError α → Except ReadError α
  | .ok a => .ok a
  | .error e => .error (e.within place)

end ReturnAudit.ClassFile
