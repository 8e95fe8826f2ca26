import ReturnAudit.Audit
import ReturnAudit.Yaml.Decode

/-!
# Configuration files

A configuration file is a YAML mapping that sets the options of an audit. Every key has to be known,
and every catalog entry has to name an owner and a method.
-/

namespace ReturnAudit.Config

open Yaml (Shape)

/-- Catalog entries. -/
def entryShape (steps : Nat) : Shape CatalogEntry :=
  Shape.record "annotation.CatalogEntry" {} [
    Shape.field "owner" Shape.text (·.owner) fun v e => { e with owner := v },
    Shape.field "name" Shape.text (·.name) fun v e => { e with name := v },
    Shape.field "signature" Shape.text (·.signature) fun v e => { e with signature := v },
    Shape.field "except" (Shape.listOf Shape.text) (·.except) fun v e => { e with except := v }]
    steps

/-- Exclusion rules. -/
def ruleShape (steps : Nat) : Shape Rule :=
  Shape.record "suppress.Rule" {} [
    Shape.field "class" Shape.text (·.className) fun v r => { r with className := v },
    Shape.field "method" Shape.text (·.method) fun v r => { r with method := v },
    Shape.field "pattern" Shape.text (·.pattern) fun v r => { r with pattern := v },
    Shape.field "reason" Shape.text (·.reason) fun v r => { r with reason := v }] steps

/-- The options of an audit. -/
def shape (steps : Nat) : Shape AuditOptions :=
  Shape.record "findbugs.Config" {} [
    Shape.field "annotations" (Shape.listOf (entryShape steps)) (·.obligations.catalog)
      fun v o => { o with obligations := { o.obligations with catalog := v } },
    Shape.field "no_default_catalog" Shape.flag (·.obligations.noDefaultCatalog)
      fun v o => { o with obligations := { o.obligations with noDefaultCatalog := v } },
    Shape.field "exclude" (Shape.listOf (ruleShape steps)) (·.exclude)
      fun v o => { o with exclude := v },
    Shape.field "min_priority" Shape.integer (·.minPriority) fun v o => { o with minPriority := v },
    Shape.field "check_all" Shape.flag (·.obligations.checkAll)
      fun v o => { o with obligations := { o.obligations with checkAll := v } },
    Shape.field "detectors" (Shape.listOf Shape.text) (·.detectors)
      fun v o => { o with detectors := v }] steps

/-- Why a configuration is refused. -/
inductive Error where
  /-- The file holds no document. -/
  | empty
  /-- The file cannot be decoded. -/
  | decode (cause : Yaml.DecodeError)
  /-- A catalog entry lacks its owner or its name. -/
  | incompleteEntry (index : Nat)
  deriving DecidableEq, Repr

/-- The wording of an error. -/
def Error.message : Error → Bytes
  | empty => "decoding config: EOF"
  | decode (.incomparable kind) => (Yaml.DecodeError.incomparable kind).message
  | decode cause => "decoding config: " ++ cause.message
  | incompleteEntry index =>
    "annotations[" ++ Numeral.ofNat index ++ "]: owner and name are required"

/-- Whether the error ends the program at once, instead of being reported by it. -/
def Error.isFatal : Error → Bool
  | decode (.incomparable _) => true
  | _ => false

/-- Whether a catalog entry names an owner and a method. -/
def isComplete (e : CatalogEntry) : Bool :=
  !e.owner.isEmpty && !e.name.isEmpty

/-- Reads a configuration. -/
def parse (s : Bytes) : Except Error AuditOptions := do
  match ← (Yaml.decode? true shape s {}).mapError Error.decode with
  | none => throw .empty
  | some options =>
    match options.obligations.catalog.findIdx? fun e => !isComplete e with
    | some index => throw (.incompleteEntry index)
    | none => return options

end ReturnAudit.Config
