import ReturnAudit.Yaml.Cursor

/-!
# Nodes of YAML documents

A document is a tree of scalars, sequences, mappings and aliases. An alias refers to an anchored
node by the number of the anchor, so that a node may be referred to before it is complete.
-/

namespace ReturnAudit.Yaml

/-- A scalar. -/
structure Scalar where
  /-- The line on which it starts, counted from one. -/
  line : Nat
  /-- The tag in its short form. -/
  tag : Bytes
  /-- The text. -/
  text : Bytes
  deriving DecidableEq, Repr, Inhabited

/-- A node of a document. -/
inductive Node where
  /-- A scalar. -/
  | scalar (s : Scalar)
  /-- A sequence. -/
  | sequence (line : Nat) (tag : Bytes) (items : List Node)
  /-- A mapping with its entries in order. -/
  | mapping (line : Nat) (tag : Bytes) (entries : List (Node × Node))
  /-- A reference: the name, a number of its own, and the number of the anchor. -/
  | aliasOf (line : Nat) (name : Bytes) (number target : Nat)
  deriving Inhabited

/-- A document: its root, the anchored nodes by their numbers, and how large it is. -/
structure Document where
  /-- The root. -/
  root : Node
  /-- The anchored nodes. -/
  anchors : List (Nat × Node)
  /-- A bound on the number of nodes. -/
  size : Nat
  deriving Inhabited

namespace Node

/-- The line on which the node starts, counted from one. -/
def line : Node → Nat
  | scalar s => s.line
  | sequence line .. => line
  | mapping line .. => line
  | aliasOf line .. => line

/-- What tells keys apart: the kind of node, and the text of a scalar or the name of an alias. -/
def keyIdentity : Node → Nat × Bytes
  | scalar s => (0, s.text)
  | sequence .. => (1, [])
  | mapping .. => (2, [])
  | aliasOf _ name .. => (3, name)

end Node

/-- The tag of nothing, in its short form like all that follow. -/
def nullTag : Bytes := "!!null"

/-- The tag of truth values. -/
def boolTag : Bytes := "!!bool"

/-- The tag of integers. -/
def intTag : Bytes := "!!int"

/-- The tag of numbers with a point. -/
def floatTag : Bytes := "!!float"

/-- The tag of texts. -/
def strTag : Bytes := "!!str"

/-- The tag of bytes. -/
def binaryTag : Bytes := "!!binary"

/-- The tag of timestamps. -/
def timestampTag : Bytes := "!!timestamp"

/-- The tag of the key whose mappings are merged. -/
def mergeTag : Bytes := "!!merge"

/-- The tag of sequences. -/
def seqTag : Bytes := "!!seq"

/-- The tag of mappings. -/
def mapTag : Bytes := "!!map"

/-- The namespace of the core types. -/
def coreNamespace : Bytes := "tag:yaml.org,2002:"

/-- The short form of a tag: the namespace of the core types becomes two exclamation marks. -/
def shortTag (tag : Bytes) : Bytes :=
  if coreNamespace.isPrefixOf tag then "!!" ++ tag.drop coreNamespace.length else tag

end ReturnAudit.Yaml
