import ReturnAudit.Digest.HighwayHash
import ReturnAudit.Symbol

/-!
# Findings

A finding says where a result was ignored and which method was called. Findings are ordered by
class, method, position and pattern, and carry a hash that stays the same when only positions
change.
-/

namespace ReturnAudit

/-- A reported defect. -/
structure Finding where
  /-- The kind of defect. -/
  pattern : Bytes := []
  /-- How severe it is; higher is worse. -/
  priority : Int := 0
  /-- The class that holds the code. -/
  className : Bytes := []
  /-- The method that holds the code. -/
  method : Option MethodRef := none
  /-- The position of the instruction. -/
  pc : Int := 0
  /-- The source line, or zero. -/
  line : Int := 0
  /-- The method whose result is ignored. -/
  called : Option MethodRef := none
  /-- What `called` stands for. -/
  note : Bytes := []
  /-- Identifies the finding across runs; empty when not computed. -/
  instanceHash : Bytes := []
  /-- Whether the finding is not to be reported. -/
  suppressed : Bool := false
  /-- Why it is not to be reported. -/
  suppressReason : Bytes := []
  deriving DecidableEq, Repr

namespace Finding

/-- The finding in one line. -/
def text (f : Finding) : Bytes :=
  f.pattern ++ " " ++ f.className
    ++ (match f.method with
      | some m => "." ++ m.key
      | none => [])
    ++ " pc " ++ Numeral.ofInt f.pc
    ++ (if 0 < f.line then " line " ++ Numeral.ofInt f.line else [])
    ++ (match f.called with
      | some m => " calls " ++ m.text
      | none => [])
    ++ " priority " ++ Numeral.ofInt f.priority

/-- The name and descriptor of the enclosing method, if known. -/
def methodKey (f : Finding) : Bytes :=
  match f.method with
  | some m => m.key
  | none => []

/-- Class first, then method, position and pattern. -/
def cmp (f g : Finding) : Ordering :=
  (Bytes.cmp f.className g.className).then <|
    (Bytes.cmp f.methodKey g.methodKey).then <|
      (compare f.pc g.pc).then (Bytes.cmp f.pattern g.pattern)

/-- Whether a finding may stand before another one. -/
def le (f g : Finding) : Bool :=
  cmp f g != .gt

/-- Findings in order; equal ones keep their order. -/
def sort (findings : List Finding) : List Finding :=
  findings.mergeSort le

/-- What the instance hash covers: the pattern, the enclosing method and the called method. -/
def identity (f : Finding) : Bytes :=
  f.pattern ++ 0 :: f.className
    ++ (match f.method with
      | some m => 0 :: m.key
      | none => [])
    ++ (match f.called with
      | some m => 0 :: m.text
      | none => [])

/-- A hash that is the same for two findings of one pattern, method and called method. -/
def computeHash (f : Finding) : Bytes :=
  Numeral.hex (HighwayHash.hash f.identity).toNat

end Finding

end ReturnAudit
