import ReturnAudit.ClassFile.Class

/-!
# Method and field references

A reference names a method or field by its class, name, signature and whether it is static. A symbol
table hands out one instance for each reference, so that later stages can tell references apart by
their instance. Clearing the table makes all earlier instances obsolete.
-/

namespace ReturnAudit

/-- A method reference; the owner is a dotted class name. -/
structure MethodRef where
  /-- The class. -/
  owner : Bytes
  /-- The name. -/
  name : Bytes
  /-- The descriptor. -/
  signature : Bytes
  /-- Whether the method is static. -/
  isStatic : Bool
  deriving DecidableEq, Repr

namespace MethodRef

/-- The type of the result. -/
def returnType (m : MethodRef) : Bytes :=
  Descriptor.returnType m.signature

/-- Whether the method returns its own class, as builders do. -/
def returnsOwner (m : MethodRef) : Bool :=
  m.returnType = Descriptor.ofClass m.owner

/-- Whether a name is that of an instance or class initializer. -/
def isInitializerName (name : Bytes) : Bool :=
  name = Bytes.ofString "<init>" || name = Bytes.ofString "<clinit>"

/-- Whether the method is an instance or class initializer. -/
def isConstructor (m : MethodRef) : Bool :=
  isInitializerName m.name

/-- The name with the descriptor, which tells the methods of a class apart. -/
def key (m : MethodRef) : Bytes :=
  m.name ++ m.signature

/-- The reference in one line. -/
def text (m : MethodRef) : Bytes :=
  (if m.isStatic then Bytes.ofString "static " else []) ++ m.owner ++ "." ++ m.name ++ m.signature

/-- The reference to a method that a class declares. -/
def declared (c : ClassFile.Class) (m : ClassFile.Method) : MethodRef :=
  ⟨c.name, m.name, m.descriptor, m.isStatic⟩

/-- The method that an instruction calls; a call site without a class calls none. -/
def invoked? (op : Opcode) (member : Option ClassFile.MemberRef) : Option MethodRef :=
  match member with
  | some m =>
    if m.owner.isEmpty then none
    else some ⟨Descriptor.dotted m.owner, m.name, m.descriptor, op = .invokestatic⟩
  | none => none

end MethodRef

/-- A field reference; the owner is a dotted class name. -/
structure FieldRef where
  /-- The class. -/
  owner : Bytes
  /-- The name. -/
  name : Bytes
  /-- The type. -/
  signature : Bytes
  /-- Whether the field is static. -/
  isStatic : Bool
  deriving DecidableEq, Repr

namespace FieldRef

/-- The reference in one line. -/
def text (f : FieldRef) : Bytes :=
  f.owner ++ "." ++ f.name ++ ":" ++ f.signature

/-- The reference to a field that a class declares. -/
def declared (c : ClassFile.Class) (f : ClassFile.Field) : FieldRef :=
  ⟨c.name, f.name, f.descriptor, f.isStatic⟩

end FieldRef

/-- A reference with the instance that a symbol table gave it. -/
structure Symbol (α : Type) where
  /-- The reference. -/
  ref : α
  /-- The number of the instance. -/
  instanceId : Nat
  deriving DecidableEq, Repr

/-- The instances handed out since the table was last cleared. -/
structure SymbolTable where
  /-- The method references. -/
  methods : List (Symbol MethodRef)
  /-- The field references. -/
  fields : List (Symbol FieldRef)
  /-- The number of the next instance; it never goes back. -/
  next : Nat
  deriving DecidableEq, Repr

namespace SymbolTable

/-- A table without instances. -/
def empty : SymbolTable := ⟨[], [], 0⟩

/-- The instance of a method reference. -/
def method (ref : MethodRef) : StateM SymbolTable (Symbol MethodRef) := fun t =>
  match t.methods.find? fun s => s.ref = ref with
  | some s => (s, t)
  | none => (⟨ref, t.next⟩, { t with methods := ⟨ref, t.next⟩ :: t.methods, next := t.next + 1 })

/-- The instance of a field reference. -/
def field (ref : FieldRef) : StateM SymbolTable (Symbol FieldRef) := fun t =>
  match t.fields.find? fun s => s.ref = ref with
  | some s => (s, t)
  | none => (⟨ref, t.next⟩, { t with fields := ⟨ref, t.next⟩ :: t.fields, next := t.next + 1 })

/-- The instance of the method that an instruction calls. -/
def invoked (op : Opcode) (member : Option ClassFile.MemberRef) :
    StateM SymbolTable (Option (Symbol MethodRef)) :=
  match MethodRef.invoked? op member with
  | some ref => some <$> method ref
  | none => pure none

/-- The number of instances. -/
def size (t : SymbolTable) : Nat :=
  t.methods.length + t.fields.length

/-- Forgets all instances. -/
def clear (t : SymbolTable) : SymbolTable :=
  { t with methods := [], fields := [] }

end SymbolTable

end ReturnAudit
