import ReturnAudit.MethodFacts
import ReturnAudit.Obligation.Resolve

/-!
# Sessions

A session is the state of one run: the classes with their hierarchy, the instances of references,
and what has been computed about them so far. Facts and obligations are kept by instance, so
clearing the instances makes what was kept unreachable.
-/

namespace ReturnAudit

open ClassFile (Method)

/-- The state of a run. -/
structure Session where
  /-- The instances of references. -/
  symbols : SymbolTable
  /-- The classes. -/
  hierarchy : Hierarchy
  /-- Facts about methods, by instance. -/
  facts : List (Nat × MethodFacts)
  /-- What obligations are resolved from. -/
  options : ObligationOptions
  /-- Resolved obligations, by instance. -/
  obligations : List (Nat × Obligation)

/-- A declared method as detectors see it. -/
structure MethodInfo where
  /-- The method. -/
  method : Method
  /-- Its reference. -/
  symbol : Symbol MethodRef

namespace MethodInfo

/-- Whether a compiler made the method up. -/
def isSynthetic (m : MethodInfo) : Bool :=
  ClassFile.hasFlag m.method.access ClassFile.accSynthetic

/-- Whether the method only forwards to another one with a more special type. -/
def isBridge (m : MethodInfo) : Bool :=
  ClassFile.hasFlag m.method.access ClassFile.accBridge

/-- Whether detectors look at the body. -/
def shouldScan (m : MethodInfo) : Bool :=
  m.method.hasBody && !m.isBridge

end MethodInfo

namespace Session

/-- A step that works on the instances only. -/
def interning (step : StateM SymbolTable α) : StateM Session α := fun s =>
  let (a, symbols) := step s.symbols
  (a, { s with symbols })

/-- The instance of a declared method. -/
def declared (c : ClassFile.Class) (m : Method) : StateM Session (Symbol MethodRef) :=
  interning (SymbolTable.method (.declared c m))

/-- Hands out the instances of the members of a class. -/
def internMembers (c : ClassFile.Class) : StateM SymbolTable Unit := do
  c.methods.forM fun m => discard (SymbolTable.method (.declared c m))
  c.fields.forM fun f => discard (SymbolTable.field (.declared c f))

/-- A session over some classes. All declared methods and fields have an instance from the start. -/
def start (classes : List ClassFile.Class) (options : ObligationOptions) : Session :=
  let (_, symbols) := classes.forM internMembers SymbolTable.empty
  ⟨symbols, .ofClasses classes, [], options, []⟩

/-- The facts kept for an instance; when there are none, those about `m` are kept from now on. -/
def factsUnder (symbol : Symbol MethodRef) (m : Method) : StateM Session MethodFacts := fun s =>
  match s.facts.lookup symbol.instanceId with
  | some facts => (facts, s)
  | none =>
    let facts := MethodFacts.ofMethod m
    (facts, { s with facts := (symbol.instanceId, facts) :: s.facts })

/-- The facts about a method. The first method with a reference decides for all. -/
def factsOf (c : ClassFile.Class) (m : Method) : StateM Session MethodFacts := do
  let symbol ← declared c m
  factsUnder symbol m

/-- The obligation of a called method. -/
def obligation (call : Symbol MethodRef) : StateM Session Obligation := fun s =>
  match s.obligations.lookup call.instanceId with
  | some o => (o, s)
  | none =>
    let o := Obligation.resolve s.hierarchy s.options call.ref
    (o, { s with obligations := (call.instanceId, o) :: s.obligations })

/-- The declared methods of a class in order. -/
def methods (c : ClassFile.Class) : StateM Session (List MethodInfo) :=
  c.methods.mapM fun m => do
    let symbol ← declared c m
    pure ⟨m, symbol⟩

/-- Forgets all instances. -/
def clearSymbols (s : Session) : Session :=
  { s with symbols := s.symbols.clear }

/-- Forgets all facts about methods. -/
def clearFacts (s : Session) : Session :=
  { s with facts := [] }

/-- Forgets all resolved obligations. -/
def clearObligations (s : Session) : Session :=
  { s with obligations := [] }

/-- Forgets everything but the classes. -/
def close (s : Session) : Session :=
  s.clearObligations.clearFacts.clearSymbols

end Session

end ReturnAudit
