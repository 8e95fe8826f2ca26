import ReturnAudit.Detector
import ReturnAudit.Suppression.Checker

/-!
# Audits

An audit visits the classes of an application with the chosen detectors, drops the findings below
the least priority, marks the suppressed ones and sorts what is left. Classes that only complete
the class path are not visited.
-/

namespace ReturnAudit

/-- What an audit can be told. -/
structure AuditOptions where
  /-- The names of the detectors to run; none stand for all. -/
  detectors : List Bytes := []
  /-- What obligations are resolved from. -/
  obligations : ObligationOptions := {}
  /-- The exclusion rules. -/
  exclude : List Rule := []
  /-- Findings below this priority are dropped. -/
  minPriority : Int := 0
  deriving DecidableEq, Repr

/-- What an audit counts. -/
structure AuditStats where
  /-- The visited classes. -/
  classes : Int := 0
  /-- The methods of the visited classes. -/
  methods : Int := 0
  /-- The bodies that detectors read. -/
  scanned : Int := 0
  /-- The findings that are not suppressed. -/
  findings : Int := 0
  /-- The suppressed findings. -/
  suppressed : Int := 0
  /-- The findings below the least priority. -/
  filtered : Int := 0
  deriving DecidableEq, Repr

/-- What an audit found. -/
structure AuditResult where
  /-- The findings in order, the suppressed ones marked. -/
  findings : List Finding
  /-- The counters. -/
  stats : AuditStats
  deriving DecidableEq, Repr

/-- The findings that are not suppressed. -/
def AuditResult.reported (r : AuditResult) : List Finding :=
  r.findings.filter fun f => !f.suppressed

/-- Why an audit failed. -/
inductive AuditError where
  /-- There is no class to visit. -/
  | noClasses
  /-- A detector could not be chosen. -/
  | detectors (cause : Detector.Error)
  /-- A rule could not be used. -/
  | suppressions (cause : Rule.Error)
  /-- The run was cancelled before it began. -/
  | canceled
  deriving DecidableEq, Repr

/-- The wording of an error. -/
def AuditError.message : AuditError → Bytes
  | noClasses => "no classes provided"
  | detectors cause => "creating detectors: " ++ cause.message
  | suppressions cause => "failed to load suppressions: " ++ cause.message
  | canceled => "running detectors: context canceled"

namespace Audit

/-- What the detectors find in a class one after another, and how many bodies they read. -/
def visitClass (detectors : List Detector) (c : ClassFile.Class) :
    StateM Session (List Finding × Nat) := do
  let results ← detectors.mapM fun d => d.visit c
  return (results.flatMap Prod.fst, (results.map Prod.snd).foldr (· + ·) 0)

/-- Everything that the detectors find, in the order of the classes, and how many bodies they read.
-/
def detect (options : ObligationOptions) (detectors : List Detector)
    (app aux : List ClassFile.Class) :
    List Finding × Nat :=
  let (results, _) := (app.mapM (visitClass detectors)) (Session.start (app ++ aux) options)
  (results.flatMap Prod.fst, (results.map Prod.snd).foldr (· + ·) 0)

/-- A finding with its hash and whether it is suppressed. -/
def annotate (checker : Checker) (f : Finding) : Finding :=
  let hashed := { f with instanceHash := f.computeHash }
  match checker.reason? hashed with
  | some reason => { hashed with suppressed := true, suppressReason := reason }
  | none => { hashed with suppressed := false, suppressReason := [] }

/-- The result of a run with the given findings, before they are filtered. -/
def summarize (minPriority : Int) (checker : Checker) (app : List ClassFile.Class)
    (found : List Finding)
    (scanned : Nat) : AuditResult :=
  let (low, kept) := found.partition fun f => f.priority < minPriority
  let findings := kept.map (annotate checker)
  { findings := Finding.sort findings
    stats :=
      { classes := app.length
        methods := ((app.map fun c => c.methods.length).foldr (· + ·) 0 : Nat)
        scanned
        findings := findings.countP fun f => !f.suppressed
        suppressed := findings.countP fun f => f.suppressed
        filtered := low.length } }

/-- Runs an audit, given what the chosen detectors find and how many bodies they read. -/
def runWith (detect : List Detector → List Finding × Nat) (options : AuditOptions)
    (canceled : Bool) (app : List ClassFile.Class) : Except AuditError AuditResult := do
  if app.isEmpty then throw .noClasses
  let detectors ← (Detector.choose options.detectors).mapError AuditError.detectors
  let (checker, fault) := Checker.load {} app options.exclude
  if let some cause := fault then throw (.suppressions cause)
  if canceled then throw .canceled
  let (found, scanned) := detect detectors
  return summarize options.minPriority checker app found scanned

/-- Runs an audit. -/
def run (options : AuditOptions) (canceled : Bool) (app aux : List ClassFile.Class) :
    Except AuditError AuditResult :=
  runWith (fun detectors => detect options.obligations detectors app aux) options canceled app

end Audit

end ReturnAudit
