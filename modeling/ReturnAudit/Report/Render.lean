import ReturnAudit.Audit
import ReturnAudit.Report.Json

/-!
# Reports

The result of an audit as text, a line for a finding, or as a JSON document. The text leaves out
suppressed findings unless they are asked for; the document holds every finding.
-/

namespace ReturnAudit

/-- How a report is written. -/
structure ReportStyle where
  /-- Write a JSON document. -/
  json : Bool := false
  /-- Add the hashes of findings to the lines. -/
  verbose : Bool := false
  /-- Also write suppressed findings. -/
  showSuppressed : Bool := false
  deriving DecidableEq, Repr

/-- What a document says about the run that made it. -/
structure RunInfo where
  /-- The version of the program. -/
  version : Bytes
  /-- When the report was written. -/
  timestamp : Bytes
  /-- How long the audit took, in nanoseconds. -/
  duration : Int
  deriving DecidableEq, Repr

namespace Report

/-- The name of a priority. -/
def priorityName (priority : Int) : Bytes :=
  if priority = 3 then "high"
  else if priority = 2 then "medium"
  else if priority = 1 then "low"
  else "priority " ++ Numeral.ofInt priority

/-- The class, the method and the line of a finding, or its position in the code when the line is
not known. -/
def location (f : Finding) : Bytes :=
  let method : Bytes := f.method.elim [] fun m => "." ++ m.name ++ m.signature
  let position : Bytes :=
    if 0 < f.line then ":" ++ Numeral.ofInt f.line else "@" ++ Numeral.ofInt f.pc
  f.className ++ method ++ position

/-- The line of a finding. -/
def line (style : ReportStyle) (f : Finding) : Bytes :=
  let called : Bytes := f.called.elim [] fun m => " ignores " ++ m.text
  let reason : Bytes := if f.suppressed then " [suppressed: " ++ f.suppressReason ++ "]" else []
  let hash : Bytes := if style.verbose && !f.instanceHash.isEmpty then " " ++ f.instanceHash else []
  location f ++ " " ++ f.pattern ++ " (" ++ priorityName f.priority ++ ")" ++ called ++ reason
    ++ hash ++ "\n"

/-- The report as text. -/
def text (style : ReportStyle) (r : AuditResult) : Bytes :=
  if r.stats.findings = 0 && !style.showSuppressed then []
  else (r.findings.filter fun f => style.showSuppressed || !f.suppressed).flatMap (line style)

/-- A field that is left out when it is empty. -/
private def optional (name value : Bytes) : List (Bytes × Json) :=
  if value.isEmpty then [] else [(name, .text value)]

/-- A finding in a document. -/
def findingJson (f : Finding) : Json :=
  let place : List (Bytes × Json) :=
    [("pattern", .text f.pattern), ("priority", .int f.priority), ("class", .text f.className),
      ("method", .text f.methodKey), ("pc", .int f.pc), ("line", .int f.line)]
  let marks : List (Bytes × Json) :=
    [("instance_hash", .text f.instanceHash), ("suppressed", .bool f.suppressed)]
  .object (place ++ optional "called" (f.called.elim [] MethodRef.text) ++ marks
    ++ optional "suppress_reason" f.suppressReason)

/-- The counters in a document. -/
def statsJson (duration : Int) (s : AuditStats) : Json :=
  .object [("classes", .int s.classes), ("methods", .int s.methods), ("scanned", .int s.scanned),
    ("findings", .int s.findings), ("suppressed", .int s.suppressed), ("filtered", .int s.filtered),
    ("duration", .int duration)]

/-- The report as a document. -/
def document (info : RunInfo) (r : AuditResult) : Json :=
  .object [("findings", .array (r.findings.map findingJson)),
    ("stats", statsJson info.duration r.stats),
    ("version", .text info.version), ("timestamp", .text info.timestamp)]

/-- The report in the chosen style. -/
def render (style : ReportStyle) (info : RunInfo) (r : AuditResult) : Bytes :=
  if style.json then (document info r).render ++ "\n" else text style r

end Report

end ReturnAudit
