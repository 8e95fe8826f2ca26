import ReturnAudit.Report.Finding
import ReturnAudit.ReturnCheck.Automaton
import ReturnAudit.Session

/-!
# Looking for ignored results

A class is visited method by method. A body is read only when it contains both a call and an
instruction that drops a result; then every ignored result whose method has to be checked becomes a
finding.
-/

namespace ReturnAudit.ReturnCheck

open ClassFile (Instruction Method)

/-- The name of the detector. -/
def name : Bytes := "MethodReturnCheck"

/-- The pattern of its findings. -/
def pattern : Bytes := "RV_RETURN_VALUE_IGNORED"

/-- What the called method of a finding stands for. -/
def noteMethodCalled : Bytes := "METHOD_CALLED"

/-- The instructions to read in a method, when it has a body, its opcodes are known, and they meet
every one of the given families. -/
def scannable (m : Method) (ops : OpcodeSet) (families : Option (List OpcodeSet)) :
    Option (List Instruction) :=
  if !m.hasBody || ops.isEmpty then none
  else
    match families with
    | some families => if ops.meetsAll families then some m.instructions else none
    | none => some m.instructions

/-- What the automaton reads for an instruction. -/
def stepOf (insn : Instruction) : StateM Session (Step (Symbol MethodRef)) := do
  let call ← if insn.opcode.isInvoke then
      Session.interning (SymbolTable.invoked insn.opcode insn.member)
    else pure none
  pure ⟨insn.opcode, insn.pc, call⟩

/-- The finding for an ignored result, when the called method has to be checked. -/
def report (c : ClassFile.Class) (info : MethodInfo) (d : Discard (Symbol MethodRef)) :
    StateM Session (Option Finding) := do
  match d.call with
  | none => pure none
  | some call =>
    let o ← Session.obligation call
    if !o.isCheck then pure none
    else
      let facts ← Session.factsOf c info.method
      let line := match info.method.code with
        | some code => code.lineAt d.callPc
        | none => 0
      pure (some { pattern, priority := score o (facts.narrowestHandler d.pc) call.ref,
                   className := c.name, method := some info.symbol.ref, pc := d.pc, line,
                   called := some call.ref, note := noteMethodCalled })

/-- The finding for what an instruction dropped, if it dropped a result. -/
def reportDropped (c : ClassFile.Class) (info : MethodInfo) :
    Option (Discard (Symbol MethodRef)) → StateM Session (Option Finding)
  | some d => report c info d
  | none => pure none

/-- Reads the instructions of a method from a state on. -/
def scanFrom (c : ClassFile.Class) (info : MethodInfo) (s : State (Symbol MethodRef)) :
    List Instruction → StateM Session (List Finding)
  | [] => pure []
  | insn :: insns => do
    let step ← stepOf insn
    let (next, dropped) := transition s step
    let found ← reportDropped c info dropped
    let rest ← scanFrom c info next insns
    pure (found.toList ++ rest)

/-- Visits a method: its findings, and whether its body was read. -/
def visitMethod (c : ClassFile.Class) (info : MethodInfo) :
    StateM Session (List Finding × Bool) := do
  if !info.shouldScan then pure ([], false)
  else
    let facts ← Session.factsOf c info.method
    match scannable info.method facts.opcodes (some [.discards, .invokes]) with
    | none => pure ([], false)
    | some insns =>
      let findings ← scanFrom c info .scan insns
      pure (findings, true)

/-- Visits a class: its findings in the order of the code, and how many bodies were read. -/
def visit (c : ClassFile.Class) : StateM Session (List Finding × Nat) := do
  let infos ← Session.methods c
  let results ← infos.mapM (visitMethod c)
  pure (results.flatMap Prod.fst, results.countP Prod.snd)

end ReturnAudit.ReturnCheck
