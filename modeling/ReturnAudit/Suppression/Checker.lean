import ReturnAudit.Suppression.Mark
import ReturnAudit.Suppression.Rule

/-!
# Suppression

A checker holds the marks of the loaded classes and the loaded rules, and tells whether a finding is
suppressed and why. Marks come before rules, earlier ones before later ones.
-/

namespace ReturnAudit

/-- Everything that suppresses findings. -/
structure Checker where
  /-- The marks of the loaded classes in the order of loading. -/
  marks : List SuppressionMark := []
  /-- The rules in the order of loading. -/
  rules : List Rule.Compiled := []
  deriving Repr

namespace Checker

/-- Reads rules from a position on, up to the first that cannot be used. -/
def compileRules (index : Nat) : List Rule → List Rule.Compiled × Option Rule.Error
  | [] => ([], none)
  | r :: rest =>
    match r.compile index with
    | .error e => ([], some e)
    | .ok compiled =>
      let (others, fault) := compileRules (index + 1) rest
      (compiled :: others, fault)

/-- Adds rules and the marks of classes. When a rule cannot be used, the rules before it are added
and no marks are. -/
def load (c : Checker) (classes : List ClassFile.Class) (rules : List Rule) :
    Checker × Option Rule.Error :=
  let (compiled, fault) := compileRules 0 rules
  let marks := if fault.isNone then classes.flatMap SuppressionMark.ofClass else []
  (⟨c.marks ++ marks, c.rules ++ compiled⟩, fault)

/-- The reason that is given where none was stated. -/
def defaultReason : Bytes := "suppressed"

/-- The reason, or the default one in place of an empty one. -/
def reasonOr (reason : Bytes) : Bytes :=
  if reason.isEmpty then defaultReason else reason

/-- Why a finding is suppressed; `none` when it is not. -/
def reason? (c : Checker) (f : Finding) : Option Bytes :=
  match c.marks.find? fun mark => mark.covers f with
  | some mark => some (reasonOr mark.reason)
  | none => (c.rules.find? fun rule => rule.excludes f).map fun rule => reasonOr rule.reason

/-- Whether a finding is suppressed. -/
def isSuppressed (c : Checker) (f : Finding) : Bool :=
  (c.reason? f).isSome

end Checker

end ReturnAudit
