import ReturnAudit.Assembly.Document
import ReturnAudit.Config
import ReturnAudit.Scenario.Expected
import ReturnAudit.Text.Sections

/-!
# Scenarios

A scenario describes the classes of an application and of its libraries, and what audits with
several configurations should find in them. It is one text with a section for each of its
documents.
-/

namespace ReturnAudit

open Yaml (Shape)

/-- An audit of a scenario with what it should find. -/
structure ScenarioConfig where
  /-- What the audit is called. -/
  name : Bytes := []
  /-- The options of the audit. -/
  options : AuditOptions := {}
  /-- The findings to be reported. -/
  findings : List ExpectedFinding := []
  /-- The findings to be suppressed. -/
  suppressed : List ExpectedFinding := []
  /-- Texts of which one has to stand in the error; without them there is to be no error. -/
  errors : List Bytes := []
  deriving DecidableEq, Repr

/-- How the audits of a scenario stand in documents. -/
def ScenarioConfig.shape (steps : Nat) : Shape ScenarioConfig :=
  Shape.record "configuration" {} [
    Shape.field "name" Shape.text (·.name) fun v c => { c with name := v },
    Shape.field "config" (Config.shape steps) (·.options) fun v c => { c with options := v },
    Shape.field "expected_findings" (Shape.listOf (ExpectedFinding.shape steps)) (·.findings)
      fun v c => { c with findings := v },
    Shape.field "expected_suppressed" (Shape.listOf (ExpectedFinding.shape steps)) (·.suppressed)
      fun v c => { c with suppressed := v },
    Shape.field "expected_errors" (Shape.listOf Shape.text) (·.errors)
      fun v c => { c with errors := v }] steps

/-- A scenario. -/
structure Scenario where
  /-- The path of the scenario without its ending. -/
  name : Bytes := []
  /-- What the scenario shows. -/
  description : Bytes := []
  /-- The classes to audit. -/
  app : List Assembly.Class := []
  /-- The classes that are only consulted. -/
  aux : List Assembly.Class := []
  /-- The audits. -/
  configs : List ScenarioConfig := []
  deriving DecidableEq, Repr

namespace Scenario

/-- How the audits of a scenario are listed in a document. -/
def configsShape (steps : Nat) : Shape (List ScenarioConfig) :=
  Shape.record "scenario" [] [
    Shape.field "configurations" (Shape.listOf (ScenarioConfig.shape steps)) id fun v _ => v] steps

/-- Why a text is no scenario. -/
inductive LoadError where
  /-- No section may have this name. -/
  | unknownSection (name : Bytes)
  /-- A section cannot be decoded. -/
  | decode (name : Bytes) (cause : Yaml.DecodeError)
  /-- A section is missing. -/
  | missingSection (name : Bytes)
  deriving DecidableEq, Repr

/-- The section with the audits. -/
def configsSection : Bytes := "expected.yaml"

/-- The section with the classes to audit. -/
def appSection : Bytes := "app.yaml"

/-- The section with the classes that are only consulted. -/
def auxSection : Bytes := "aux.yaml"

/-- Reads a document on top of an earlier value, which stays where the document is empty. -/
private def decodeOnto (name : Bytes) (shape : Nat → Shape α) (content : Bytes) (old : α) :
    Except LoadError α := do
  let value? ← (Yaml.decode? false shape content old).mapError (LoadError.decode name)
  return value?.getD old

/-- Reads a section; one that comes again is read on top of the first. -/
def readSection (s : Scenario) (part : Bytes × Bytes) : Except LoadError Scenario := do
  let (name, content) := part
  if name = configsSection then
    return { s with configs := ← decodeOnto name configsShape content s.configs }
  else if name = appSection then
    return { s with app := ← decodeOnto name Assembly.classListShape content s.app }
  else if name = auxSection then
    return { s with aux := ← decodeOnto name Assembly.classListShape content s.aux }
  else throw (.unknownSection name)

/-- The name of a scenario at a path. -/
def nameOf (path : Bytes) : Bytes :=
  Bytes.dropSuffix ".txtar" path

/-- Reads the scenario in a text that stands at a path. -/
def load (path text : Bytes) : Except LoadError Scenario := do
  let parts := SectionedText.parse text
  let start : Scenario := { name := nameOf path, description := Blank.trim parts.comment }
  let scenario ← parts.sections.foldlM readSection start
  for wanted in [configsSection, appSection] do
    unless parts.sections.any fun part => part.1 = wanted do throw (.missingSection wanted)
  return scenario

end Scenario

end ReturnAudit
