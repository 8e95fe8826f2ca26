import ReturnAudit.ClassFile.Cursor

/-!
# The constant pool

The constants of a class file refer to each other by index. Index zero is never used, and a long or
a double takes two indices, of which the second leads nowhere.
-/

namespace ReturnAudit.ClassFile

/-- A constant with the indices it refers to. -/
inductive Constant where
  | utf8 (text : Bytes)
  | integer (bits : UInt32)
  | float (bits : UInt32)
  | long (bits : UInt64)
  | double (bits : UInt64)
  | classRef (name : UInt16)
  | string (text : UInt16)
  | fieldRef (owner nameAndType : UInt16)
  | methodRef (owner nameAndType : UInt16)
  | interfaceMethodRef (owner nameAndType : UInt16)
  | nameAndType (name descriptor : UInt16)
  | methodHandle (kind : UInt8) (reference : UInt16)
  | methodType (descriptor : UInt16)
  | dynamic (bootstrap nameAndType : UInt16)
  | invokeDynamic (bootstrap nameAndType : UInt16)
  | module (name : UInt16)
  | package (name : UInt16)
  deriving DecidableEq, Repr

namespace Constant

/-- The tag that marks each kind of constant. -/
def tag : Constant → Nat
  | utf8 _ => 1
  | integer _ => 3
  | float _ => 4
  | long _ => 5
  | double _ => 6
  | classRef _ => 7
  | string _ => 8
  | fieldRef .. => 9
  | methodRef .. => 10
  | interfaceMethodRef .. => 11
  | nameAndType .. => 12
  | methodHandle .. => 15
  | methodType _ => 16
  | dynamic .. => 17
  | invokeDynamic .. => 18
  | module _ => 19
  | package _ => 20

/-- How many pool indices a constant takes. -/
def slots : Constant → Nat
  | long _ => 2
  | double _ => 2
  | _ => 1

/-- Reads the constant for the pool index `index`. -/
def read (index : Nat) : Reader Constant := do
  let one := fun (make : UInt16 → Constant) => make <$> Reader.within (.constant index) Reader.u2
  let two := fun (make : UInt16 → UInt16 → Constant) => Reader.within (.constant index) do
    let first ← Reader.u2
    let second ← Reader.u2
    pure (make first second)
  let word := fun (make : UInt32 → Constant) => make <$> Reader.within (.constant index) Reader.u4
  let words := fun (make : UInt64 → Constant) => Reader.within (.constant index) do
    let high ← Reader.u4
    let low ← Reader.u4
    pure (make (high.toUInt64 <<< 32 ||| low.toUInt64))
  let tag ← Reader.within (.constantTag index) Reader.u1
  match tag.toNat with
  | 1 =>
    let length ← Reader.within (.utf8Length index) Reader.u2
    utf8 <$> Reader.within (.utf8Bytes index) (Reader.take length.toNat)
  | 3 => word integer
  | 4 => word float
  | 5 => words long
  | 6 => words double
  | 7 => one classRef
  | 8 => one string
  | 9 => two fieldRef
  | 10 => two methodRef
  | 11 => two interfaceMethodRef
  | 12 => two nameAndType
  | 15 => Reader.within (.constant index) do
    let kind ← Reader.u1
    let reference ← Reader.u2
    pure (methodHandle kind reference)
  | 16 => one methodType
  | 17 => two dynamic
  | 18 => two invokeDynamic
  | 19 => one module
  | 20 => one package
  | n => Reader.fail (.unknownTag index n)

end Constant

/-- A field or method operand: the class it belongs to with slashes in its name, empty for a dynamic
call site. -/
structure MemberRef where
  /-- The class. -/
  owner : Bytes
  /-- The name of the member. -/
  name : Bytes
  /-- The type of the member. -/
  descriptor : Bytes
  /-- Whether it is a method of an interface. -/
  isInterface : Bool
  deriving DecidableEq, Repr

/-- Owner, name and descriptor in one line. -/
def MemberRef.text (m : MemberRef) : Bytes :=
  if m.owner.isEmpty then m.name ++ ":" ++ m.descriptor
  else m.owner ++ "." ++ m.name ++ ":" ++ m.descriptor

/-- The constants of a class by index. -/
structure Pool where
  /-- The constant at each index; index zero and the second index of a long or double have none. -/
  entries : Array (Option Constant)
  deriving DecidableEq, Repr

namespace Pool

/-- One more than the largest index. -/
def size (pool : Pool) : Nat :=
  pool.entries.size

/-- Reads constants for the indices from `index` on until `count` indices are taken. A constant of
two indices leaves the second one empty, and may end one index beyond `count`. -/
def readFrom (index : Nat) : (count : Nat) → Reader (List (Option Constant))
  | 0 => pure []
  | 1 => do
    let c ← Constant.read index
    pure [some c]
  | count + 2 => do
    let c ← Constant.read index
    if c.slots = 2 then
      let rest ← readFrom (index + 2) count
      pure (some c :: none :: rest)
    else
      let rest ← readFrom (index + 1) (count + 1)
      pure (some c :: rest)

/-- Reads a constant pool. -/
def read : Reader Pool := do
  let count ← Reader.within .constantCount Reader.u2
  match count.toNat with
  | 0 => pure ⟨#[]⟩
  | n + 1 =>
    let entries ← readFrom 1 n
    pure ⟨(none :: entries).toArray⟩

/-- The constant at an index. -/
def get (pool : Pool) (index : UInt16) (wanted : List Nat) : Except ReadError Constant :=
  match pool.entries[index.toNat]? with
  | none => .error (.of (.indexOutOfRange index.toNat))
  | some entry =>
    if index = 0 then .error (.of (.indexOutOfRange 0))
    else
      match entry with
      | none => .error (.of (.wrongTag index.toNat 0 wanted))
      | some c =>
        if wanted.contains c.tag then .ok c
        else .error (.of (.wrongTag index.toNat c.tag wanted))

/-- The text at an index. -/
def utf8 (pool : Pool) (index : UInt16) : Except ReadError Bytes := do
  match ← pool.get index [1] with
  | .utf8 text => pure text
  | c => .error (.of (.wrongTag index.toNat c.tag [1]))

/-- The name of the class at an index. -/
def className (pool : Pool) (index : UInt16) : Except ReadError Bytes := do
  match ← pool.get index [7] with
  | .classRef name => pool.utf8 name
  | c => .error (.of (.wrongTag index.toNat c.tag [7]))

/-- The name and the descriptor at an index. -/
def nameAndType (pool : Pool) (index : UInt16) : Except ReadError (Bytes × Bytes) := do
  match ← pool.get index [12] with
  | .nameAndType name descriptor =>
    let n ← pool.utf8 name
    let d ← pool.utf8 descriptor
    pure (n, d)
  | c => .error (.of (.wrongTag index.toNat c.tag [12]))

/-- The tags of the constants that name a member or a dynamic call site. -/
def memberTags : List Nat := [9, 10, 11, 18, 17]

/-- The member whose class and name are at the given indices. -/
def ownedMember (pool : Pool) (index owner nameAndType : UInt16) (isInterface : Bool) :
    Except ReadError MemberRef := do
  let o ← locate (.memberOwner index.toNat) (pool.className owner)
  let (n, d) ← locate (.memberName index.toNat) (pool.nameAndType nameAndType)
  pure ⟨o, n, d, isInterface⟩

/-- The call site whose name is at the given index. -/
def dynamicMember (pool : Pool) (index nameAndType : UInt16) :
    Except ReadError MemberRef := do
  let (n, d) ← locate (.memberName index.toNat) (pool.nameAndType nameAndType)
  pure ⟨[], n, d, false⟩

/-- The field, method or dynamic call site at an index. -/
def member (pool : Pool) (index : UInt16) : Except ReadError MemberRef := do
  match ← pool.get index memberTags with
  | .fieldRef owner nt => pool.ownedMember index owner nt false
  | .methodRef owner nt => pool.ownedMember index owner nt false
  | .interfaceMethodRef owner nt => pool.ownedMember index owner nt true
  | .dynamic _ nt => pool.dynamicMember index nt
  | .invokeDynamic _ nt => pool.dynamicMember index nt
  | c => .error (.of (.wrongTag index.toNat c.tag memberTags))

end Pool

end ReturnAudit.ClassFile
