import ReturnAudit.ClassFile.Class
import ReturnAudit.Report.Finding
import ReturnAudit.Text.Blank
import ReturnAudit.Text.Numeral

/-!
# Expectations

Classes that serve as test inputs say themselves, by annotations, which findings are expected in
them and which are not. Verification compares these expectations with the findings of a run.
-/

namespace ReturnAudit

open ClassFile

/-- A statement about the findings in a class or in one of its methods. -/
structure Expectation where
  /-- The class. -/
  className : Bytes := []
  /-- The method by name and descriptor; empty when the whole class is meant. -/
  method : Bytes := []
  /-- The beginning of the pattern. -/
  pattern : Bytes := []
  /-- Whether a finding is expected, or expected not to be there. -/
  wanted : Bool := false
  deriving DecidableEq, Repr

namespace Expectation

/-- The annotation that states expected or unexpected findings. -/
def annotationName (wanted : Bool) : Bytes :=
  if wanted then "fbtest.annotations.ExpectWarning" else "fbtest.annotations.NoWarning"

/-- The wording of an expectation. -/
def text (e : Expectation) : Bytes :=
  let place := if e.method.isEmpty then e.className else e.className ++ "." ++ e.method
  let what : Bytes := if e.wanted then "warning" else "no warning"
  place ++ ": expected " ++ what ++ " " ++ e.pattern

/-- The expectations of one kind among some annotations; their patterns are divided by commas. -/
def ofAnnotation (wanted : Bool) (className method : Bytes) (annotations : List Annotation) :
    List Expectation :=
  match ClassFile.Annotation.find? annotations (annotationName wanted) with
  | none => []
  | some a =>
    let value := (a.element? "value").elim [] ClassFile.ElementValue.constText
    let patterns := (Bytes.splitOn (Bytes.ofChar ',') value).map Blank.trim
    (patterns.filter fun p => !p.isEmpty).map fun p => ⟨className, method, p, wanted⟩

/-- The expectations among some annotations, the wanted findings first. -/
def ofAnnotations (className method : Bytes) (annotations : List Annotation) : List Expectation :=
  ofAnnotation true className method annotations ++ ofAnnotation false className method annotations

/-- The expectations of a class, its own first and then those of its methods. -/
def ofClass (c : ClassFile.Class) : List Expectation :=
  ofAnnotations c.name [] c.annotations
    ++ c.methods.flatMap fun m => ofAnnotations c.name (m.name ++ m.descriptor) m.annotations

/-- Whether a finding is one that the expectation speaks of. -/
def concerns (e : Expectation) (f : Finding) : Bool :=
  !f.suppressed && f.className = e.className && e.pattern.isPrefixOf f.pattern
    && (e.method.isEmpty || f.method.any fun m => m.name ++ m.signature = e.method)

/-- The message about an expectation that the findings do not meet. -/
def failure? (findings : List Finding) (e : Expectation) : Option Bytes :=
  let got := findings.countP e.concerns
  if decide (0 < got) = e.wanted then none
  else some (e.text ++ ", got " ++ Numeral.ofNat got)

/-- The messages about all expectations that the findings do not meet. -/
def verify (expectations : List Expectation) (findings : List Finding) : List Bytes :=
  expectations.filterMap (failure? findings)

end Expectation

end ReturnAudit
