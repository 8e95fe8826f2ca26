import ReturnAudit.ClassFile.Constant
import ReturnAudit.ClassFile.Descriptor

/-!
# Growing a constant pool

While a class is encoded its constants are collected in the order in which they are first asked for.
Each constant is filed under a key, and a later request with the same key gets the earlier index.
-/

namespace ReturnAudit.Assembly

open ClassFile (Constant)

/-- A number as two bytes, the higher first; what does not fit is cut off. -/
def beShort (n : Nat) : Bytes :=
  [(n / 256).toUInt8, n.toUInt8]

/-- A number as four bytes, the highest first; what does not fit is cut off. -/
def beWord (n : Nat) : Bytes :=
  beShort (n / 65536) ++ beShort n

/-- The bytes of a constant in a class file. -/
def encodeConstant (c : Constant) : Bytes :=
  c.tag.toUInt8 ::
    match c with
    | .utf8 text => beShort text.length ++ text
    | .integer bits | .float bits => beWord bits.toNat
    | .long bits | .double bits => beWord (bits.toNat >>> 32) ++ beWord bits.toNat
    | .classRef i | .string i | .methodType i | .module i | .package i => beShort i.toNat
    | .methodHandle kind i => kind :: beShort i.toNat
    | .fieldRef i j | .methodRef i j | .interfaceMethodRef i j | .nameAndType i j
    | .dynamic i j | .invokeDynamic i j => beShort i.toNat ++ beShort j.toNat

/-- What a constant is filed under. -/
inductive Key where
  | utf8 (text : Bytes)
  | classRef (name : Bytes)
  | string (text : Bytes)
  | integer (value : Int)
  /-- Name and descriptor, divided by a colon. -/
  | nameAndType (text : Bytes)
  /-- Tag, then owner, name and descriptor, divided by a dot and a colon. -/
  | member (tag : Nat) (text : Bytes)
  deriving DecidableEq, Repr

/-- The constants collected so far, in the order of their indices. -/
structure PoolBuilder where
  /-- The constants, the latest first. -/
  filed : List (Key × Constant)
  /-- The number of constants. -/
  size : Nat
  deriving DecidableEq, Repr

namespace PoolBuilder

/-- No constants. -/
def empty : PoolBuilder := ⟨[], 0⟩

/-- The constants in the order of their indices. -/
def constants (p : PoolBuilder) : List Constant :=
  p.filed.reverse.map Prod.snd

/-- The index of the constant filed under a key, when `size` constants are filed. -/
def indexOf? (key : Key) : List (Key × Constant) → (size : Nat) → Option UInt16
  | [], _ => none
  | (k, _) :: rest, size =>
    if k = key then some size.toUInt16 else indexOf? key rest (size - 1)

/-- The index of a constant, which is filed under its key unless something is already. -/
def add (key : Key) (c : Constant) : StateM PoolBuilder UInt16 := fun p =>
  match indexOf? key p.filed p.size with
  | some i => (i, p)
  | none => ((p.size + 1).toUInt16, ⟨(key, c) :: p.filed, p.size + 1⟩)

/-- The index of a text. -/
def utf8 (text : Bytes) : StateM PoolBuilder UInt16 :=
  add (.utf8 text) (.utf8 text)

/-- The index of a class by its name, with dots or slashes. -/
def classRef (name : Bytes) : StateM PoolBuilder UInt16 := do
  let internal := Descriptor.slashed name
  let text ← utf8 internal
  add (.classRef internal) (.classRef text)

/-- The index of a string constant. -/
def string (text : Bytes) : StateM PoolBuilder UInt16 := do
  let i ← utf8 text
  add (.string text) (.string i)

/-- The index of an integer constant. -/
def integer (value : Int) : StateM PoolBuilder UInt16 :=
  add (.integer value) (.integer (BitVec.ofInt 32 value).toNat.toUInt32)

/-- The index of a name with a descriptor. -/
def nameAndType (name descriptor : Bytes) : StateM PoolBuilder UInt16 := do
  let n ← utf8 name
  let d ← utf8 descriptor
  add (.nameAndType (name ++ ":" ++ descriptor)) (.nameAndType n d)

/-- The index of a field or method; `make` gives the kind of constant. -/
def member (make : UInt16 → UInt16 → Constant) (owner name descriptor : Bytes) :
    StateM PoolBuilder UInt16 := do
  let c ← classRef owner
  let nt ← nameAndType name descriptor
  let text := Descriptor.slashed owner ++ "." ++ name ++ ":" ++ descriptor
  add (.member (make 0 0).tag text) (make c nt)

end PoolBuilder

end ReturnAudit.Assembly
