import ReturnAudit.Yaml.Resolve
import ReturnAudit.Yaml.Scanner

/-!
# Composing YAML documents

The tokens of the first document become a tree of nodes. What stands behind that document is read
only as far as the scanner looks ahead.
-/

namespace ReturnAudit.Yaml

/-- What is known while a document is composed. -/
structure Composer where
  /-- The tokens. -/
  scanner : Scanner
  /-- What tag handles stand for. -/
  handles : List (Bytes × Bytes) := []
  /-- The number of the last anchor of each name. -/
  names : List (Bytes × Nat) := []
  /-- The complete anchored nodes. -/
  anchors : List (Nat × Node) := []
  /-- The number of the next anchor or alias. -/
  next : Nat := 0

/-- A step of composing. -/
abbrev Compose := StateT Composer (Except Fault)

namespace Compose

/-- Refuses the document. -/
def refuse : Compose α :=
  throw .arrangement

/-- A step of the scanner. -/
private def scanning (step : Scan α) : Compose α := do
  match step (← get).scanner with
  | .error e => throw e
  | .ok (a, scanner) =>
    modify fun s => { s with scanner }
    return a

/-- The next token. -/
def peek : Compose Token :=
  scanning Scan.peek

/-- The kind of the next token. -/
def peekKind : Compose TokenKind :=
  return (← peek).kind

/-- Hands out the next token. -/
def take : Compose Token :=
  scanning Scan.take

/-- The next number. -/
def number : Compose Nat := do
  let n := (← get).next
  modify fun s => { s with next := n + 1 }
  return n

/-- The properties before a node: where they start, the anchor and the tag. -/
structure Properties where
  /-- The line of the first property, or of the node. -/
  line : Nat
  /-- The name of the anchor. -/
  anchor : Option Bytes := none
  /-- The handle and the suffix of the tag. -/
  tag : Option (Bytes × Bytes) := none

/-- Takes an anchor if one comes next. -/
private def takeAnchor (p : Properties) : Compose Properties := do
  match ← peekKind with
  | .anchor name =>
    discard take
    return { p with anchor := some name }
  | _ => return p

/-- Takes a tag if one comes next. -/
private def takeTag (p : Properties) : Compose Properties := do
  match ← peekKind with
  | .tag handle suffix =>
    discard take
    return { p with tag := some (handle, suffix) }
  | _ => return p

/-- Reads an anchor and a tag in either order. -/
def properties : Compose Properties := do
  let p : Properties := { line := (← peek).line }
  match ← peekKind with
  | .anchor _ => takeTag (← takeAnchor p)
  | .tag .. => takeAnchor (← takeTag p)
  | _ => return p

/-- The full tag of a node; empty when there is none. -/
def fullTag (p : Properties) : Compose Bytes := do
  match p.tag with
  | none => return []
  | some ([], suffix) => return suffix
  | some (handle, suffix) =>
    match (← get).handles.lookup handle with
    | some expansion =>
      let tag := expansion ++ suffix
      if tag.isEmpty then refuse else return tag
    | none => refuse

/-- The tag that a node has: its own in short form, or the given one where it has none of its own.
-/
def tagOr (own standard : Bytes) : Bytes :=
  if own.isEmpty || own = Bytes.ofString "!" then standard else shortTag own

/-- A scalar node. -/
def scalarNode (line : Nat) (own text : Bytes) (plain : Bool) : Node :=
  let standard :=
    if !plain then strTag
    else if text = Bytes.ofString "<<" then mergeTag
    else plainTag text
  .scalar ⟨line + 1, tagOr own standard, text⟩

/-- A node that is not written. -/
def emptyNode (line : Nat) : Node :=
  scalarNode line [] [] true

/-- Gives the next number to an anchor, before the node that it names is composed. -/
def openAnchor (p : Properties) : Compose (Option Nat) := do
  match p.anchor with
  | none => return none
  | some name =>
    let n ← number
    modify fun s => { s with names := (name, n) :: s.names }
    return some n

/-- Records the node of an anchor. -/
def closeAnchor (anchor : Option Nat) (node : Node) : Compose Node := do
  if let some n := anchor then
    modify fun s => { s with anchors := (n, node) :: s.anchors }
  return node

/-- The node of an alias. -/
def aliasNode (line : Nat) (name : Bytes) : Compose Node := do
  match (← get).names.lookup name with
  | none => throw .unknownAnchor
  | some target => return .aliasOf (line + 1) name (← number) target

mutual

/-- Composes a node. Block collections are allowed where `block` is set, and sequences without an
indentation of their own where `indentless` is set. -/
def node : Nat → Bool → Bool → Compose Node
  | 0, _, _ => refuse
  | fuel + 1, block, indentless => do
    match ← peek with
    | ⟨.aliasOf name, line⟩ =>
      discard take
      aliasNode line name
    | _ =>
      let p ← properties
      let own ← fullTag p
      let anchor ← openAnchor p
      let line := p.line + 1
      match indentless, block, ← peekKind with
      | true, _, .blockEntry =>
        closeAnchor anchor (.sequence line (tagOr own seqTag) (← indentlessItems fuel))
      | _, _, .scalar text plain =>
        discard take
        closeAnchor anchor (scalarNode p.line own text plain)
      | _, _, .flowSequenceStart =>
        discard take
        closeAnchor anchor (.sequence line (tagOr own seqTag) (← flowItems fuel true))
      | _, _, .flowMappingStart =>
        discard take
        closeAnchor anchor (.mapping line (tagOr own mapTag) (← flowEntries fuel true))
      | _, true, .blockSequenceStart =>
        discard take
        closeAnchor anchor (.sequence line (tagOr own seqTag) (← blockItems fuel))
      | _, true, .blockMappingStart =>
        discard take
        closeAnchor anchor (.mapping line (tagOr own mapTag) (← blockEntries fuel))
      | _, _, _ =>
        if p.anchor.isSome || !own.isEmpty then
          closeAnchor anchor (scalarNode p.line own [] true)
        else refuse

/-- The items of a block sequence. -/
def blockItems : Nat → Compose (List Node)
  | 0 => refuse
  | fuel + 1 => do
    match ← take with
    | ⟨.blockEnd, _⟩ => return []
    | ⟨.blockEntry, line⟩ =>
      let item ←
        match ← peekKind with
        | .blockEntry | .blockEnd => pure (emptyNode line)
        | _ => node fuel true false
      return item :: (← blockItems fuel)
    | _ => refuse

/-- The items of a sequence that has the indentation of the mapping around it. -/
def indentlessItems : Nat → Compose (List Node)
  | 0 => refuse
  | fuel + 1 => do
    match ← peek with
    | ⟨.blockEntry, line⟩ =>
      discard take
      let item ←
        match ← peekKind with
        | .blockEntry | .key | .value | .blockEnd => pure (emptyNode line)
        | _ => node fuel true false
      return item :: (← indentlessItems fuel)
    | _ => return []

/-- The entries of a block mapping. -/
def blockEntries : Nat → Compose (List (Node × Node))
  | 0 => refuse
  | fuel + 1 => do
    match ← take with
    | ⟨.blockEnd, _⟩ => return []
    | ⟨.key, line⟩ =>
      let key ←
        match ← peekKind with
        | .key | .value | .blockEnd => pure (emptyNode line)
        | _ => node fuel true true
      let value ← blockValue fuel
      return (key, value) :: (← blockEntries fuel)
    | _ => refuse

/-- The value of an entry of a block mapping. -/
def blockValue : Nat → Compose Node
  | 0 => refuse
  | fuel + 1 => do
    match ← peek with
    | ⟨.value, line⟩ =>
      discard take
      match ← peekKind with
      | .key | .value | .blockEnd => return emptyNode line
      | _ => node fuel true true
    | ⟨_, line⟩ => return emptyNode line

/-- The items of a flow sequence. -/
def flowItems : Nat → Bool → Compose (List Node)
  | 0, _ => refuse
  | fuel + 1, first => do
    if (← peekKind) = .flowSequenceEnd then
      discard take
      return []
    unless first do
      unless (← take).kind = .flowEntry do refuse
    match ← peek with
    | ⟨.flowSequenceEnd, _⟩ =>
      discard take
      return []
    | ⟨.key, line⟩ =>
      discard take
      let item ← singlePair fuel line
      return item :: (← flowItems fuel false)
    | _ =>
      let item ← node fuel false false
      return item :: (← flowItems fuel false)

/-- A mapping of one entry that stands in a flow sequence without braces. -/
def singlePair : Nat → Nat → Compose Node
  | 0, _ => refuse
  | fuel + 1, line => do
    let key ←
      match ← peek with
      | ⟨.value, l⟩ | ⟨.flowEntry, l⟩ | ⟨.flowSequenceEnd, l⟩ =>
        discard take
        pure (emptyNode l)
      | _ => node fuel false false
    let value ←
      match ← peek with
      | ⟨.value, l⟩ =>
        discard take
        match ← peekKind with
        | .flowEntry | .flowSequenceEnd => pure (emptyNode l)
        | _ => node fuel false false
      | ⟨_, l⟩ => pure (emptyNode l)
    return .mapping (line + 1) mapTag [(key, value)]

/-- The entries of a flow mapping. -/
def flowEntries : Nat → Bool → Compose (List (Node × Node))
  | 0, _ => refuse
  | fuel + 1, first => do
    if (← peekKind) = .flowMappingEnd then
      discard take
      return []
    unless first do
      unless (← take).kind = .flowEntry do refuse
    match ← peekKind with
    | .flowMappingEnd =>
      discard take
      return []
    | .key =>
      discard take
      let key ←
        match ← peek with
        | ⟨.value, l⟩ | ⟨.flowEntry, l⟩ | ⟨.flowMappingEnd, l⟩ => pure (emptyNode l)
        | _ => node fuel false false
      let value ← flowValue fuel
      return (key, value) :: (← flowEntries fuel false)
    | _ =>
      let key ← node fuel false false
      let value := emptyNode (← peek).line
      return (key, value) :: (← flowEntries fuel false)

/-- The value of an entry of a flow mapping. -/
def flowValue : Nat → Compose Node
  | 0 => refuse
  | fuel + 1 => do
    match ← peek with
    | ⟨.value, _⟩ =>
      discard take
      match ← peek with
      | ⟨.flowEntry, l⟩ | ⟨.flowMappingEnd, l⟩ => return emptyNode l
      | _ => node fuel false false
    | ⟨_, l⟩ => return emptyNode l

end

/-- What tag handles stand for where no directive says otherwise. -/
def standardHandles : List (Bytes × Bytes) :=
  [("!", "!"), ("!!", coreNamespace)]

/-- Reads directives. A version may be given once and is that of the language; no handle may be
given twice. -/
def directives : Nat → Bool → Compose Unit
  | 0, _ => refuse
  | fuel + 1, versioned => do
    match ← peekKind with
    | .versionDirective major minor =>
      if versioned || major != 1 || minor != 1 then refuse
      discard take
      directives fuel true
    | .tagDirective handle expansion =>
      if ((← get).handles.lookup handle).isSome then refuse
      modify fun s => { s with handles := s.handles ++ [(handle, expansion)] }
      discard take
      directives fuel versioned
    | _ => modify fun s => { s with handles := s.handles ++ standardHandles }

/-- Composes the first document of a text; `none` when there is no document. -/
def document (fuel : Nat) : Compose (Option Node) := do
  discard take
  match ← peekKind with
  | .streamEnd => return none
  | .versionDirective .. | .tagDirective .. | .documentStart =>
    directives fuel false
    unless (← take).kind = .documentStart do refuse
    let root ←
      match ← peek with
      | ⟨.versionDirective .., l⟩ | ⟨.tagDirective .., l⟩ | ⟨.documentStart, l⟩
      | ⟨.documentEnd, l⟩ | ⟨.streamEnd, l⟩ => pure (emptyNode l)
      | _ => node fuel true false
    discard peek
    return some root
  | _ =>
    directives fuel false
    let root ← node fuel true false
    discard peek
    return some root

end Compose

/-- Reads the first document of a text; `none` when there is no document. -/
def parse (s : Bytes) : Except Fault (Option Document) := do
  let source := Source.ofBytes s
  let fuel := 16 * source.points.length + 64
  let (root, composer) ← Compose.document fuel { scanner := { cursor := .start source } }
  return root.map fun root => ⟨root, composer.anchors, fuel⟩

end ReturnAudit.Yaml
