import ReturnAudit.ClassFile.Class
import ReturnAudit.ClassFile.OpcodeSet

/-!
# Facts about method bodies

What later stages ask about a method body: which opcodes occur in it and which handlers protect a
position.
-/

namespace ReturnAudit

/-- The facts about one method. -/
structure MethodFacts where
  /-- The opcodes that occur in the body. -/
  opcodes : OpcodeSet
  /-- The protected ranges in the order of the class file. -/
  handlers : List ClassFile.ExceptionRange
  deriving DecidableEq

namespace MethodFacts

/-- The facts about a method; a method without a body has none. -/
def ofMethod (m : ClassFile.Method) : MethodFacts :=
  match m.code with
  | some code =>
    if code.instructions.isEmpty then ⟨.empty, []⟩
    else ⟨.ofList (code.instructions.map (·.opcode)), code.exceptionTable⟩
  | none => ⟨.empty, []⟩

/-- The narrowest range that protects a position; of several, the first. -/
def narrowestHandler (facts : MethodFacts) (pc : Int) : Option ClassFile.ExceptionRange :=
  ClassFile.ExceptionRange.narrowest facts.handlers pc

end MethodFacts

end ReturnAudit
