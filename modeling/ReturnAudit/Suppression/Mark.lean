import ReturnAudit.ClassFile.Class
import ReturnAudit.Report.Finding
import ReturnAudit.Text.Blank

/-!
# Suppression marks

A class or a method may carry an annotation that suppresses findings in it, all of them or those
whose pattern starts with one of the listed beginnings.
-/

namespace ReturnAudit

open ClassFile

/-- The names of the annotations that suppress findings, in the order in which they are looked up.
-/
def suppressingTypes : List Bytes :=
  ["edu.umd.cs.findbugs.annotations.SuppressFBWarnings",
    "edu.umd.cs.findbugs.annotations.SuppressWarnings"]

/-- A suppression that a class or one of its methods carries. -/
structure SuppressionMark where
  /-- The class. -/
  className : Bytes
  /-- The method by name and descriptor; empty when the whole class is meant. -/
  method : Bytes
  /-- The beginnings of the suppressed patterns; none stand for all patterns. -/
  patterns : List Bytes
  /-- Why the findings are suppressed. -/
  reason : Bytes
  deriving DecidableEq, Repr

namespace SuppressionMark

/-- The patterns that an annotation lists. -/
def patternsOf (a : Annotation) : List Bytes :=
  match a.element? "value" with
  | none => []
  | some value =>
    value.items.map (·.constText) ++ if value.tag = Bytes.ofChar 's' then [value.constText] else []

/-- The justification that an annotation gives. -/
def reasonOf (a : Annotation) : Bytes :=
  match a.element? "justification" with
  | none => []
  | some value => Blank.trim value.constText

/-- The mark among some annotations: of the known types the first that is there. -/
def ofAnnotations? (className method : Bytes) (annotations : List Annotation) :
    Option SuppressionMark :=
  (suppressingTypes.findSome? fun type => ClassFile.Annotation.find? annotations type).map fun a =>
    ⟨className, method, patternsOf a, reasonOf a⟩

/-- The marks of a class, its own first and then those of its methods. -/
def ofClass (c : ClassFile.Class) : List SuppressionMark :=
  (ofAnnotations? c.name [] c.annotations).toList
    ++ c.methods.filterMap fun m => ofAnnotations? c.name (m.name ++ m.descriptor) m.annotations

/-- Whether the mark suppresses a finding. -/
def covers (s : SuppressionMark) (f : Finding) : Bool :=
  f.className = s.className
    && (s.method.isEmpty || f.method.any fun m => m.name ++ m.signature = s.method)
    && (s.patterns.isEmpty || s.patterns.any fun beginning => beginning.isPrefixOf f.pattern)

end SuppressionMark

end ReturnAudit
