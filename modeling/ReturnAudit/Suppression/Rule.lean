import ReturnAudit.Regex.Parse
import ReturnAudit.Regex.Search
import ReturnAudit.Report.Finding
import ReturnAudit.Text.Numeral

/-!
# Exclusion rules

A rule excludes findings by three expressions: for the class, the method name and the pattern. An
empty expression holds of every text. A nonempty one is read between a start anchor and an end
anchor, inside a group of its own.
-/

namespace ReturnAudit

/-- An exclusion rule as it is written. -/
structure Rule where
  /-- The expression for class names. -/
  className : Bytes := []
  /-- The expression for method names. -/
  method : Bytes := []
  /-- The expression for patterns. -/
  pattern : Bytes := []
  /-- Why the findings are excluded. -/
  reason : Bytes := []
  deriving DecidableEq, Repr

namespace Rule

/-- The fields that hold an expression. -/
inductive Field where
  /-- The expression for class names. -/
  | className
  /-- The expression for method names. -/
  | method
  /-- The expression for patterns. -/
  | pattern
  deriving DecidableEq, Repr

/-- The name of a field in messages. -/
def Field.text : Field → String
  | className => "class"
  | method => "method"
  | pattern => "pattern"

/-- Why a rule cannot be used: its position, the field and the fault of the expression. -/
structure Error where
  /-- The position of the rule in its list. -/
  index : Nat
  /-- The field at fault. -/
  field : Field
  /-- The fault. -/
  cause : Regex.Error
  deriving DecidableEq, Repr

/-- The wording of an error. -/
def Error.message (e : Error) : Bytes :=
  "rule " ++ Numeral.ofNat e.index ++ ": " ++ Bytes.ofString e.field.text ++ ": " ++ e.cause.message

/-- The expression of a field between anchors. -/
def anchored (source : Bytes) : Bytes :=
  "^(?:" ++ source ++ ")$"

/-- Reads the expression of a field; an empty one is no condition. -/
def readExpression (source : Bytes) : Except Regex.Error (Option Regex.Expr) :=
  if source.isEmpty then .ok none else some <$> Regex.Expr.parse (anchored source)

/-- A rule whose expressions have been read. -/
structure Compiled where
  /-- The condition on the class name. -/
  className : Option Regex.Expr
  /-- The condition on the method name. -/
  method : Option Regex.Expr
  /-- The condition on the pattern. -/
  pattern : Option Regex.Expr
  /-- Why the findings are excluded. -/
  reason : Bytes
  deriving Repr

/-- Reads the expressions of the rule at a position of its list. -/
def compile (index : Nat) (r : Rule) : Except Error Compiled := do
  let className ← (readExpression r.className).mapError (Error.mk index .className)
  let method ← (readExpression r.method).mapError (Error.mk index .method)
  let pattern ← (readExpression r.pattern).mapError (Error.mk index .pattern)
  return ⟨className, method, pattern, r.reason⟩

/-- Whether a condition holds of a text. -/
def holdsOf (condition : Option Regex.Expr) (text : Bytes) : Bool :=
  condition.all fun e => e.isFoundIn text

/-- Whether the rule excludes a finding. -/
def Compiled.excludes (r : Compiled) (f : Finding) : Bool :=
  holdsOf r.className f.className
    && holdsOf r.method (f.method.elim [] MethodRef.name)
    && holdsOf r.pattern f.pattern

end Rule

end ReturnAudit
