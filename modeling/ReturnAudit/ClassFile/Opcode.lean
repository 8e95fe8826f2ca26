import ReturnAudit.Text.Numeral

/-!
# Opcodes

The instruction set of the Java virtual machine: mnemonics, the shape of the operand bytes that
follow each opcode, and the families of opcodes that matter for ignored results.
-/

namespace ReturnAudit

/-- An instruction opcode. -/
structure Opcode where
  /-- The byte that encodes it. -/
  code : UInt8
  deriving DecidableEq, Repr

namespace Opcode

/-- The mnemonics of the defined opcodes, in the order of their codes. -/
def mnemonics : List String := [
  "nop", "aconst_null", "iconst_m1", "iconst_0", "iconst_1", "iconst_2", "iconst_3", "iconst_4",
  "iconst_5", "lconst_0", "lconst_1", "fconst_0", "fconst_1", "fconst_2", "dconst_0", "dconst_1",
  "bipush", "sipush", "ldc", "ldc_w", "ldc2_w", "iload", "lload", "fload",
  "dload", "aload", "iload_0", "iload_1", "iload_2", "iload_3", "lload_0", "lload_1",
  "lload_2", "lload_3", "fload_0", "fload_1", "fload_2", "fload_3", "dload_0", "dload_1",
  "dload_2", "dload_3", "aload_0", "aload_1", "aload_2", "aload_3", "iaload", "laload",
  "faload", "daload", "aaload", "baload", "caload", "saload", "istore", "lstore",
  "fstore", "dstore", "astore", "istore_0", "istore_1", "istore_2", "istore_3", "lstore_0",
  "lstore_1", "lstore_2", "lstore_3", "fstore_0", "fstore_1", "fstore_2", "fstore_3", "dstore_0",
  "dstore_1", "dstore_2", "dstore_3", "astore_0", "astore_1", "astore_2", "astore_3", "iastore",
  "lastore", "fastore", "dastore", "aastore", "bastore", "castore", "sastore", "pop",
  "pop2", "dup", "dup_x1", "dup_x2", "dup2", "dup2_x1", "dup2_x2", "swap",
  "iadd", "ladd", "fadd", "dadd", "isub", "lsub", "fsub", "dsub",
  "imul", "lmul", "fmul", "dmul", "idiv", "ldiv", "fdiv", "ddiv",
  "irem", "lrem", "frem", "drem", "ineg", "lneg", "fneg", "dneg",
  "ishl", "lshl", "ishr", "lshr", "iushr", "lushr", "iand", "land",
  "ior", "lor", "ixor", "lxor", "iinc", "i2l", "i2f", "i2d",
  "l2i", "l2f", "l2d", "f2i", "f2l", "f2d", "d2i", "d2l",
  "d2f", "i2b", "i2c", "i2s", "lcmp", "fcmpl", "fcmpg", "dcmpl",
  "dcmpg", "ifeq", "ifne", "iflt", "ifge", "ifgt", "ifle", "if_icmpeq",
  "if_icmpne", "if_icmplt", "if_icmpge", "if_icmpgt", "if_icmple", "if_acmpeq", "if_acmpne", "goto",
  "jsr", "ret", "tableswitch", "lookupswitch", "ireturn", "lreturn", "freturn", "dreturn",
  "areturn", "return", "getstatic", "putstatic", "getfield", "putfield", "invokevirtual",
  "invokespecial", "invokestatic", "invokeinterface", "invokedynamic", "new", "newarray",
  "anewarray", "arraylength", "athrow", "checkcast", "instanceof", "monitorenter", "monitorexit",
  "wide", "multianewarray", "ifnull", "ifnonnull", "goto_w", "jsr_w"]

/-- Pushes a byte as a number. -/
def bipush : Opcode := ⟨0x10⟩

/-- Pushes a constant. -/
def ldc : Opcode := ⟨0x12⟩

/-- Drops the value on top of the stack, which takes one slot. -/
def pop : Opcode := ⟨0x57⟩

/-- Drops two slots of the stack. -/
def pop2 : Opcode := ⟨0x58⟩

/-- Adds a number to a variable. -/
def iinc : Opcode := ⟨0x84⟩

/-- Calls a method of an instance. -/
def invokevirtual : Opcode := ⟨0xb6⟩

/-- Calls a method of an instance without a look at its class. -/
def invokespecial : Opcode := ⟨0xb7⟩

/-- Calls a method of a class. -/
def invokestatic : Opcode := ⟨0xb8⟩

/-- Calls a method of an interface. -/
def invokeinterface : Opcode := ⟨0xb9⟩

/-- Calls what a bootstrap method links. -/
def invokedynamic : Opcode := ⟨0xba⟩

/-- Creates an array of arrays. -/
def multianewarray : Opcode := ⟨0xc5⟩

/-- Whether the opcode is defined. -/
def isDefined (op : Opcode) : Bool :=
  op.code.toNat < mnemonics.length

/-- The mnemonic of an opcode; an undefined opcode is named by its code. -/
def mnemonic (op : Opcode) : Bytes :=
  match mnemonics[op.code.toNat]? with
  | some name => name
  | none => "opcode_0x" ++ Numeral.hex op.code.toNat

/-- The defined opcode with a given mnemonic. -/
def ofMnemonic? (name : Bytes) : Option Opcode :=
  (mnemonics.findIdx? fun m => Bytes.ofString m = name).map fun i => ⟨i.toUInt8⟩

/-- Whether the opcode calls a method whose result can be ignored. Dynamic call sites are left
out, because they name no class. -/
def isInvoke (op : Opcode) : Bool :=
  op = invokevirtual || op = invokespecial || op = invokestatic || op = invokeinterface

/-- Whether the opcode only takes one or two words off the operand stack. -/
def isDiscard (op : Opcode) : Bool :=
  op = pop || op = pop2

/-- The shape of the operand bytes that follow an opcode. -/
inductive Operands where
  /-- No operand bytes. -/
  | none
  /-- An unsigned byte. -/
  | byte
  /-- A signed byte. -/
  | signedByte
  /-- An unsigned 16-bit number. -/
  | short
  /-- A signed 16-bit number. -/
  | signedShort
  /-- A signed 32-bit number. -/
  | signedWord
  /-- An unsigned byte for a local variable, then a byte that is added to it. -/
  | localIncrement
  /-- The pool index of a field or method, then a number of further bytes. -/
  | member (padding : Nat)
  /-- The pool index of a class, then a number of further bytes. -/
  | classRef (padding : Nat)
  /-- Padding, a default offset, two bounds and an offset for each value between them. -/
  | tableSwitch
  /-- Padding, a default offset, a count and so many pairs. -/
  | lookupSwitch
  /-- An opcode with a 16-bit local variable. -/
  | wide
  /-- The opcode is not defined. -/
  | undefined
  deriving DecidableEq, Repr

/-- The shape of the operand bytes of each opcode. -/
def operands (op : Opcode) : Operands :=
  let c := op.code
  if c ≤ 0x0f then .none
  else if c = 0x10 then .signedByte
  else if c = 0x11 then .signedShort
  else if c = 0x12 then .byte
  else if c ≤ 0x14 then .short
  else if c ≤ 0x19 then .byte
  else if c ≤ 0x35 then .none
  else if c ≤ 0x3a then .byte
  else if c ≤ 0x83 then .none
  else if c = 0x84 then .localIncrement
  else if c ≤ 0x98 then .none
  else if c ≤ 0xa8 then .signedShort
  else if c = 0xa9 then .byte
  else if c = 0xaa then .tableSwitch
  else if c = 0xab then .lookupSwitch
  else if c ≤ 0xb1 then .none
  else if c ≤ 0xb8 then .member 0
  else if c ≤ 0xba then .member 2
  else if c = 0xbb then .classRef 0
  else if c = 0xbc then .byte
  else if c = 0xbd then .classRef 0
  else if c ≤ 0xbf then .none
  else if c ≤ 0xc1 then .classRef 0
  else if c ≤ 0xc3 then .none
  else if c = 0xc4 then .wide
  else if c = 0xc5 then .classRef 1
  else if c ≤ 0xc7 then .signedShort
  else if c ≤ 0xc9 then .signedWord
  else .undefined

/-- Whether the operand is a field or a method. -/
def hasMemberOperand (op : Opcode) : Bool :=
  match op.operands with
  | .member _ => true
  | _ => false

/-- Whether the operand is a class. -/
def hasClassOperand (op : Opcode) : Bool :=
  match op.operands with
  | .classRef _ => true
  | _ => false

/-- Whether an instruction with this opcode may follow the wide prefix, other than an increment:
the loads, the stores and the return from a subroutine. -/
def isWidened (op : Opcode) : Bool :=
  (0x15 ≤ op.code && op.code ≤ 0x19) || (0x36 ≤ op.code && op.code ≤ 0x3a) || op.code = 0xa9

end Opcode

end ReturnAudit
