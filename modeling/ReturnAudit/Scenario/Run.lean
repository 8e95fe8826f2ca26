import ReturnAudit.Assembly.Encode
import ReturnAudit.ClassPath.Load
import ReturnAudit.Report.Expectation
import ReturnAudit.Scenario.Case

/-!
# Running scenarios

The classes of a scenario are encoded, stored and loaded again before they are audited: those of the
application as files below a directory, the others as entries of an archive. Every class has to come
back. An audit passes when it finds what it should, and when the expectations that its classes state
themselves are met.
-/

namespace ReturnAudit

/-- What came of an audit of a scenario. -/
structure ConfigOutcome where
  /-- What the audit is called. -/
  name : Bytes
  /-- Whether it passed. -/
  success : Bool
  /-- What came of it. -/
  message : Bytes
  /-- What went wrong, point by point. -/
  details : List Bytes := []
  /-- The result, unless the audit failed as it should. -/
  result : Option AuditResult := none
  deriving DecidableEq, Repr

/-- What came of a scenario. -/
structure ScenarioOutcome where
  /-- Whether all audits passed. -/
  success : Bool
  /-- What came of it. -/
  message : Bytes
  /-- What came of the audits. -/
  configs : List ConfigOutcome
  deriving DecidableEq, Repr

namespace Scenario

/-- Why a scenario cannot be run. -/
inductive RunError where
  /-- There is no audit to run. -/
  | noConfigs
  /-- A class cannot be encoded. -/
  | encode (cause : Assembly.EncodeError)
  /-- A class cannot be stored. -/
  | store (name : Bytes)
  /-- The classes cannot be loaded. -/
  | load (cause : ClassPath.Error)
  /-- Not every class came back. -/
  | lost (described loaded : Nat)
  /-- An audit failed that should not. -/
  | audit (cause : AuditError)

/-- The path of the file that stores a class. -/
def fileName (c : Assembly.Class) : Bytes :=
  Descriptor.slashed c.name ++ ".class"

/-- The class file of a class. -/
private def encodeClass (c : Assembly.Class) : Except RunError Bytes :=
  (Assembly.encode c).mapError RunError.encode

/-- Stores a class below a directory. -/
def storeClass (directory : Path) (tree : FileTree) (c : Assembly.Class) :
    Except RunError FileTree := do
  let content ← encodeClass c
  match (Path.ofText? (fileName c)).bind fun path => tree.writeFile (directory ++ path) content with
  | some tree => return tree
  | none => throw (.store c.name)

/-- Loads classes from a path and checks that none of those described is lost. -/
def loadAll (tree : FileTree) (path : Bytes) (described : List Assembly.Class) :
    Except RunError (List ClassFile.Class) := do
  let loaded ← (ClassPath.load ⟨[], [], tree⟩ [path]).mapError RunError.load
  unless loaded.classes.length = described.length do
    throw (.lost described.length loaded.classes.length)
  return loaded.classes

/-- Where the classes of the application are stored. -/
def appDirectory : Bytes := "classes"

/-- Where the archive of the other classes is stored. -/
def auxArchive : Bytes := "aux.jar"

/-- The classes of the application, stored and loaded again. -/
def loadApp (s : Scenario) : Except RunError (List ClassFile.Class) := do
  let tree ← s.app.foldlM (storeClass [appDirectory]) {}
  loadAll tree ("/" ++ appDirectory) s.app

/-- The other classes, stored and loaded again. -/
def loadAux (s : Scenario) : Except RunError (List ClassFile.Class) := do
  if s.aux.isEmpty then return []
  let entries ← s.aux.mapM fun c => return (fileName c, ← encodeClass c)
  let tree : FileTree := ⟨[([auxArchive], some (Archive.Zip.write entries))]⟩
  loadAll tree ("/" ++ auxArchive) s.aux

/-- Lines with a label in front of each. -/
private def labelled (label : Bytes) (lines : List Bytes) : List Bytes :=
  lines.map fun line => label ++ line

/-- Holds a result against the findings that are expected. -/
def checkFindings (c : ScenarioConfig) (r : AuditResult) : ConfigOutcome :=
  let (hidden, shown) := r.findings.partition (·.suppressed)
  let reported := ExpectedFinding.compare c.findings (shown.map .ofFinding)
  let suppressed := ExpectedFinding.compare c.suppressed (hidden.map .ofFinding)
  let details := labelled "Should have been reported: " reported.missing
    ++ labelled "Should not have been reported: " reported.unexpected
    ++ labelled "Should have been suppressed: " suppressed.missing
    ++ labelled "Unexpectedly suppressed: " suppressed.unexpected
    ++ reported.mismatched ++ suppressed.mismatched
  let message : Bytes :=
    if details.isEmpty then
      "All " ++ Numeral.ofNat c.findings.length ++ " expected findings found"
    else
      "Test failed: " ++ Numeral.ofNat (reported.missing.length + suppressed.missing.length)
        ++ " missing, " ++ Numeral.ofNat (reported.unexpected.length + suppressed.unexpected.length)
        ++ " unexpected"
  { name := c.name, success := details.isEmpty, message, details, result := some r }

/-- Adds the failures of the expectations that the classes state themselves. -/
def addFailures (failures : List Bytes) (o : ConfigOutcome) : ConfigOutcome :=
  if failures.isEmpty then o
  else
    { o with
      success := false
      message := o.message ++ ", " ++ Numeral.ofNat failures.length
        ++ " annotated expectations failed"
      details := o.details ++ failures }

/-- Runs an audit of a scenario. -/
def runConfig (app aux : List ClassFile.Class) (c : ScenarioConfig) :
    Except RunError ConfigOutcome :=
  match Audit.run c.options false app aux with
  | .error e =>
    if c.errors.any fun text => Bytes.hasInfix text e.message then
      .ok { name := c.name, success := true, message := "Got expected error: " ++ e.message }
    else .error (.audit e)
  | .ok r =>
    if c.errors.isEmpty then
      let expectations := app.flatMap Expectation.ofClass
      .ok (addFailures (Expectation.verify expectations r.findings) (checkFindings c r))
    else
      let wanted := Bytes.join " " (c.errors.map Quoted.text)
      .ok { name := c.name, success := false, result := some r
            message := "Expected errors [" ++ wanted ++ "], got none" }

/-- A failed audit in a message. -/
def failureText (o : ConfigOutcome) : Bytes :=
  "[" ++ o.name ++ "] " ++ o.message ++ ":\n  " ++ Bytes.join "\n  " o.details

/-- Sums up the audits of a scenario. -/
def summarize (outcomes : List ConfigOutcome) : ScenarioOutcome :=
  let failed := outcomes.filter fun o => !o.success
  let total := Numeral.ofNat outcomes.length
  let message : Bytes :=
    if failed.isEmpty then "All " ++ total ++ " configurations passed"
    else
      Numeral.ofNat failed.length ++ "/" ++ total ++ " configurations failed:\n"
        ++ Bytes.join "\n" (failed.map failureText)
  ⟨failed.isEmpty, message, outcomes⟩

/-- Runs a scenario. -/
def run (s : Scenario) : Except RunError ScenarioOutcome := do
  if s.configs.isEmpty then throw .noConfigs
  let app ← s.loadApp
  let aux ← s.loadAux
  return summarize (← s.configs.mapM (runConfig app aux))

end Scenario

end ReturnAudit
