import ReturnAudit.Text.Bytes

/-!
# Tokens of YAML text

The tokens that a document is made of. The starts and ends of blocks come from the indentation and
have no characters of their own.
-/

namespace ReturnAudit.Yaml

/-- The kinds of tokens. -/
inductive TokenKind where
  /-- The start of the text. -/
  | streamStart
  /-- The end of the text. -/
  | streamEnd
  /-- A directive that names the version. -/
  | versionDirective (major minor : Nat)
  /-- A directive that gives a tag handle its meaning. -/
  | tagDirective (handle expansion : Bytes)
  /-- Three hyphens. -/
  | documentStart
  /-- Three dots. -/
  | documentEnd
  /-- The start of a block sequence. -/
  | blockSequenceStart
  /-- The start of a block mapping. -/
  | blockMappingStart
  /-- The end of a block collection. -/
  | blockEnd
  /-- An opening bracket. -/
  | flowSequenceStart
  /-- A closing bracket. -/
  | flowSequenceEnd
  /-- An opening brace. -/
  | flowMappingStart
  /-- A closing brace. -/
  | flowMappingEnd
  /-- A hyphen before an entry. -/
  | blockEntry
  /-- A comma. -/
  | flowEntry
  /-- The start of a key. -/
  | key
  /-- The colon before a value. -/
  | value
  /-- The name of a node that is used again. -/
  | aliasOf (name : Bytes)
  /-- A name for the node that follows. -/
  | anchor (name : Bytes)
  /-- A tag by its handle and suffix. -/
  | tag (handle suffix : Bytes)
  /-- A scalar, and whether it is plain. -/
  | scalar (text : Bytes) (plain : Bool)
  deriving DecidableEq, Repr

/-- A token and the line on which it starts. -/
structure Token where
  /-- What it is. -/
  kind : TokenKind
  /-- How many lines come before it. -/
  line : Nat
  deriving DecidableEq, Repr

end ReturnAudit.Yaml
