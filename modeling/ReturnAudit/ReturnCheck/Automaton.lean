import ReturnAudit.Obligation.Basic
import ReturnAudit.Symbol

/-!
# The ignored result automaton

A result is ignored when the instruction right after a call takes it off the stack. The automaton
reads the instructions of a body in order and remembers only whether the last one was a call.
-/

namespace ReturnAudit.ReturnCheck

/-- What is remembered between two instructions. -/
inductive State (ρ : Type) where
  /-- The last instruction was no call. -/
  | scan
  /-- The last instruction, at `pc`, was a call. -/
  | sawInvoke (call : Option ρ) (pc : Int)
  deriving DecidableEq, Repr

/-- A call whose result is taken off the stack by the next instruction. -/
structure Discard (ρ : Type) where
  /-- The called method. -/
  call : Option ρ
  /-- The position of the call. -/
  callPc : Int
  /-- The position of the instruction that drops the result. -/
  pc : Int
  deriving DecidableEq, Repr

/-- One instruction; `call` is the method it calls, if it calls a known one. -/
structure Step (ρ : Type) where
  /-- The opcode. -/
  opcode : Opcode
  /-- The position. -/
  pc : Int
  /-- The called method. -/
  call : Option ρ
  deriving DecidableEq, Repr

/-- Reads one instruction. A call of an unknown method counts as any other instruction. -/
def transition (s : State ρ) (step : Step ρ) : State ρ × Option (Discard ρ) :=
  match s with
  | .sawInvoke call callPc =>
    if step.opcode.isDiscard then (.scan, some ⟨call, callPc, step.pc⟩)
    else if step.opcode.isInvoke && step.call.isSome then (.sawInvoke step.call step.pc, none)
    else (.scan, none)
  | .scan =>
    if step.opcode.isInvoke && step.call.isSome then (.sawInvoke step.call step.pc, none)
    else (.scan, none)

/-- The states after each of some instructions, with what each of them dropped. -/
def trace (s : State ρ) : List (Step ρ) → List (State ρ × Option (Discard ρ))
  | [] => []
  | step :: steps =>
    let next := transition s step
    next :: trace next.1 steps

/-- The ignored results in a sequence of instructions. -/
def discards (s : State ρ) (steps : List (Step ρ)) : List (Discard ρ) :=
  (trace s steps).filterMap Prod.snd

/-- The priority of an ignored result, as a 64-bit number. A narrow protected range around it makes
it worse, and so does an obligation that the called class does not itself declare, unless the method
returns its own class. -/
def score (o : Obligation) (range : Option ClassFile.ExceptionRange) (call : MethodRef) : Int :=
  let guard : Int := match range with
    | some r => if r.width ≤ 1 then 2 else if r.width ≤ 2 then 1 else 0
    | none => 0
  let distance : Int := if !o.direct && !call.returnsOwner then 1 else 0
  (o.priority + guard + distance).bmod (1 <<< 64)

end ReturnAudit.ReturnCheck
