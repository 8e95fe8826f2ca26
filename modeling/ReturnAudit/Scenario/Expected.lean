import ReturnAudit.Report.Finding
import ReturnAudit.Yaml.Decode

/-!
# Expected findings

A scenario lists the findings that an audit should make. Expected findings are matched in order,
each with the first actual finding at the same place that is not taken yet; a pattern, priority or
line that is left open suits every finding.
-/

namespace ReturnAudit

open Yaml (Shape)

/-- A finding as a scenario describes it. -/
structure ExpectedFinding where
  /-- The kind of defect; empty when left open. -/
  pattern : Bytes := []
  /-- The class that holds the code. -/
  className : Bytes := []
  /-- The name and descriptor of the method that holds the code. -/
  method : Bytes := []
  /-- The owner, name and descriptor of the called method. -/
  called : Bytes := []
  /-- The priority; zero when left open. -/
  priority : Int := 0
  /-- The source line; zero when left open. -/
  line : Int := 0
  deriving DecidableEq, Repr

namespace ExpectedFinding

/-- How expected findings stand in documents. -/
def shape (steps : Nat) : Shape ExpectedFinding :=
  Shape.record "expected finding" {} [
    Shape.field "pattern" Shape.text (·.pattern) fun v e => { e with pattern := v },
    Shape.field "class" Shape.text (·.className) fun v e => { e with className := v },
    Shape.field "method" Shape.text (·.method) fun v e => { e with method := v },
    Shape.field "called" Shape.text (·.called) fun v e => { e with called := v },
    Shape.field "priority" Shape.integer (·.priority) fun v e => { e with priority := v },
    Shape.field "line" Shape.integer (·.line) fun v e => { e with line := v }] steps

/-- The place of a finding and the method that it is about. -/
def key (e : ExpectedFinding) : Bytes :=
  e.className ++ "." ++ e.method ++ " -> " ++ e.called

/-- The finding in one line. -/
def text (e : ExpectedFinding) : Bytes :=
  if e.pattern.isEmpty then e.key else e.pattern ++ " " ++ e.key

/-- The description of an actual finding. -/
def ofFinding (f : Finding) : ExpectedFinding where
  pattern := f.pattern
  className := f.className
  method := f.methodKey
  called := match f.called with
    | some m => m.owner ++ "." ++ m.name ++ m.signature
    | none => []
  priority := f.priority
  line := f.line

/-- The text about one difference. -/
private def mismatch (what : Bytes) (e : ExpectedFinding) (wanted actual : Bytes) : Bytes :=
  what ++ " mismatch for " ++ e.key ++ ": expected " ++ wanted ++ ", got " ++ actual

/-- What an actual finding at the right place has different. -/
def mismatches (wanted actual : ExpectedFinding) : List Bytes :=
  (if wanted.pattern.isEmpty || wanted.pattern = actual.pattern then []
    else [mismatch "Pattern" wanted wanted.pattern actual.pattern]) ++
  (if wanted.priority = 0 || wanted.priority = actual.priority then []
    else [mismatch "Priority" wanted (Numeral.ofInt wanted.priority)
      (Numeral.ofInt actual.priority)]) ++
  (if wanted.line = 0 || wanted.line = actual.line then []
    else [mismatch "Line" wanted (Numeral.ofInt wanted.line) (Numeral.ofInt actual.line)])

/-- The differences between expected and actual findings. -/
structure Comparison where
  /-- The expected findings that were not made. -/
  missing : List Bytes := []
  /-- The findings that were not expected. -/
  unexpected : List Bytes := []
  /-- What findings at the right place have different. -/
  mismatched : List Bytes := []
  deriving DecidableEq, Repr

/-- Matches the expected findings in order; `actual` holds the findings that are not taken yet. -/
def matchAll : List ExpectedFinding → List ExpectedFinding → Comparison
  | [], actual => { unexpected := actual.map text }
  | wanted :: rest, actual =>
    match actual.find? fun a => a.key = wanted.key with
    | none =>
      let others := matchAll rest actual
      { others with missing := wanted.text :: others.missing }
    | some found =>
      let others := matchAll rest (actual.eraseP fun a => a.key = wanted.key)
      { others with mismatched := wanted.mismatches found ++ others.mismatched }

/-- The differences, with the missing and the unexpected findings sorted. -/
def compare (expected actual : List ExpectedFinding) : Comparison :=
  let c := matchAll expected actual
  { c with missing := Bytes.sort c.missing, unexpected := Bytes.sort c.unexpected }

end ExpectedFinding

end ReturnAudit
