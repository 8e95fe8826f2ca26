import ReturnAudit.ClassPath.Load
import ReturnAudit.Command.Completion
import ReturnAudit.Config
import ReturnAudit.Report.Render

/-!
# Running the command

The command loads the configuration, then the classes to audit, then the classes that complete the
class path, and reports what the audit finds. The first of these steps that fails decides the
error. The request of a shell is answered before everything else.
-/

namespace ReturnAudit.Command

/-- Why the configuration file cannot be read. -/
inductive FileFault where
  /-- Nothing stands at the location; the location may lead through a file. -/
  | missing (location : Bytes) (blocked : Bool)
  /-- A directory stands at the location. -/
  | directory (location : Bytes)
  deriving DecidableEq, Repr

/-- The wording of a fault. -/
def FileFault.message : FileFault → Bytes
  | missing location blocked => ClassPath.openFault location blocked
  | directory location => "read " ++ location ++ ": is a directory"

/-- Why the command failed. -/
inductive Error where
  /-- The arguments are refused. -/
  | usage (cause : UsageError)
  /-- The configuration file cannot be read. -/
  | configFile (path : Bytes) (cause : FileFault)
  /-- The configuration is refused. -/
  | config (cause : Config.Error)
  /-- The classes to audit cannot be loaded. -/
  | classes (cause : ClassPath.Error)
  /-- The classes that complete the class path cannot be loaded. -/
  | auxClasses (cause : ClassPath.Error)
  /-- The audit failed. -/
  | audit (cause : AuditError)
  deriving DecidableEq, Repr

/-- The wording of an error. -/
def Error.message : Error → Bytes
  | usage cause => cause.message
  | configFile path cause => "analyze: reading config " ++ path ++ ": " ++ cause.message
  | config cause => "analyze: " ++ cause.message
  | classes cause => "analyze: loading classes: " ++ cause.message
  | auxClasses cause => "analyze: loading aux classpath: " ++ cause.message
  | audit cause => "analyze: " ++ cause.message

/-- The message of an error that ends the program at once, instead of being reported by it. -/
def Error.fatal? : Error → Option Bytes
  | config cause => if cause.isFatal then some cause.message else none
  | _ => none

/-- Reads a file of the workspace. -/
def readFile (w : Workspace) (path : Bytes) : Except FileFault Bytes :=
  let l := Location.ofText (w.fullName path)
  match (w.find l).2 with
  | .file content => .ok content
  | .directory => .error (.directory l.path)
  | .absent => .error (.missing l.path false)
  | .blocked => .error (.missing l.path true)

/-- The configuration that the options name; without a file everything has its default. -/
def configured (w : Workspace) (o : Options) : Except Error AuditOptions :=
  if o.config.isEmpty then .ok {}
  else do
    let content ← (readFile w o.config).mapError (Error.configFile o.config)
    (Config.parse content).mapError Error.config

/-- The audit that is asked for: flags win over the configuration when they are set. -/
def Options.override (o : Options) (c : AuditOptions) : AuditOptions where
  detectors := if o.detectors.isEmpty then c.detectors else o.detectors
  obligations := { c.obligations with checkAll := c.obligations.checkAll || o.checkAll }
  exclude := c.exclude
  minPriority := if 0 < o.minPriority then o.minPriority else c.minPriority

/-- Audits the classes that the options name. -/
def audit (w : Workspace) (o : Options) : Except Error AuditResult := do
  let c ← configured w o
  let app ← (ClassPath.load w o.classPath).mapError Error.classes
  let aux ← (ClassPath.load w o.auxClassPath).mapError Error.auxClasses
  (Audit.run (o.override c) false app.classes aux.classes).mapError Error.audit

/-- How the options want the report to be written. -/
def Options.style (o : Options) : ReportStyle :=
  ⟨o.json, o.verbose, o.showSuppressed⟩

/-- What a run of the command leaves behind. -/
structure Outcome where
  /-- The exit status: zero, one when there are findings, two after an error. -/
  status : Nat
  /-- What is written. -/
  output : Bytes := []
  /-- What is written beside the output: the message of an error, or a remark. -/
  complaint : Bytes := []
  deriving DecidableEq, Repr

/-- The outcome of an error. -/
def Outcome.ofError (e : Error) : Outcome :=
  { status := 2, complaint := e.message ++ "\n" }

/-- What the command has done when nothing failed. -/
inductive Performed where
  /-- It shows a text about itself. -/
  | shown (text : Bytes)
  /-- It answered a shell. -/
  | completed (described : Bool) (c : Completion)
  /-- It audited classes. -/
  | audited (o : Options) (r : AuditResult)
  deriving DecidableEq, Repr

/-- Does what the arguments ask for. -/
def perform (w : Workspace) (arguments : List Bytes) : Except Error Performed := do
  if let some request := CompletionRequest.ofArguments? arguments then
    let some answer := Completion.answer? request | throw (.usage .noOperand)
    return .completed request.described answer
  let o ← (Options.parse arguments).mapError Error.usage
  if o.help then return .shown helpText
  if o.version then return .shown versionText
  return .audited o (← audit w o)

/-- The outcome of what was done. -/
def Performed.outcome (info : RunInfo) : Performed → Outcome
  | shown text => { status := 0, output := text }
  | completed described c => ⟨0, c.text described, c.remark⟩
  | audited o r =>
    { status := if r.reported.isEmpty then 0 else 1, output := Report.render o.style info r }

/-- Runs the command. -/
def run (w : Workspace) (info : RunInfo) (arguments : List Bytes) : Outcome :=
  match perform w arguments with
  | .error e => .ofError e
  | .ok done => done.outcome info

end ReturnAudit.Command
