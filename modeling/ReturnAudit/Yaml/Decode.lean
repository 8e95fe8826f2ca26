import ReturnAudit.Text.Quoted
import ReturnAudit.Yaml.Compose

/-!
# Decoding YAML documents

A shape says how nodes become values of a type: texts, truth values, integers, lists, dictionaries
and records with named fields. Decoding goes on after a mismatch, so that all mismatches of a
document are reported together. A null leaves a value as it is, and a null item of a list is
dropped.
-/

namespace ReturnAudit.Yaml

/-- A place at which a document does not have the expected shape. -/
inductive Mismatch where
  /-- A node cannot become a value of a type. -/
  | wrongType (line : Nat) (tag text wanted : Bytes)
  /-- A mapping has a key twice. -/
  | duplicate (line : Nat) (key : Bytes) (first : Nat)
  /-- A record has no field of that name. -/
  | unknownField (line : Nat) (name type : Bytes)
  /-- A record was given a field twice. -/
  | repeatedField (line : Nat) (name type : Bytes)
  deriving DecidableEq, Repr

/-- The text of a scalar as messages show it: a long one is cut. -/
def excerpt (text : Bytes) : Bytes :=
  if 10 < text.length then " `" ++ text.take 7 ++ "...`" else " `" ++ text ++ "`"

/-- The wording of a mismatch. -/
def Mismatch.message : Mismatch → Bytes
  | wrongType line tag text wanted =>
    let shown := if tag = seqTag || tag = mapTag then text else excerpt text
    "line " ++ Numeral.ofNat line ++ ": cannot unmarshal " ++ tag ++ shown ++ " into " ++ wanted
  | duplicate line key first =>
    "line " ++ Numeral.ofNat line ++ ": mapping key " ++ Quoted.text key ++
      " already defined at line " ++ Numeral.ofNat first
  | unknownField line name type =>
    "line " ++ Numeral.ofNat line ++ ": field " ++ name ++ " not found in type " ++ type
  | repeatedField line name type =>
    "line " ++ Numeral.ofNat line ++ ": field " ++ name ++ " already set in type " ++ type

/-- The state of decoding. -/
structure Decoding where
  /-- The anchored nodes. -/
  anchors : List (Nat × Node)
  /-- Whether a field that a record does not have is a mismatch. -/
  strict : Bool
  /-- The mismatches so far, last first. -/
  mismatches : List Mismatch := []
  /-- The numbers of the aliases that are being followed. -/
  following : List Nat := []
  /-- How many nodes were decoded. -/
  decoded : Nat := 0
  /-- How many of them were reached through an alias. -/
  aliased : Nat := 0
  /-- While mappings are merged, the keys that are already settled. -/
  settled : Option (List Value) := none
  /-- How deep nodes may nest, aliases included. -/
  depth : Nat

/-- A step of decoding. -/
abbrev Decode := StateT Decoding (Except Fault)

namespace Decode

/-- Notes a mismatch. -/
def note (m : Mismatch) : Decode Unit :=
  modify fun s => { s with mismatches := m :: s.mismatches }

/-- Whether aliases make up too much of the nodes: more than 99 percent in small documents, and less
in large ones. -/
def isExcessive (decoded aliased : Nat) : Bool :=
  100 < aliased && 1000 < decoded &&
    if decoded ≤ 400000 then 99 * decoded < 100 * aliased
    else if 4000000 ≤ decoded then decoded < 10 * aliased
    else (99 * 3600000 - 89 * (decoded - 400000)) * decoded < 100 * 3600000 * aliased

/-- Counts a node. -/
def count : Decode Unit := do
  let s ← get
  let decoded := s.decoded + 1
  let aliased := if s.following.isEmpty then s.aliased else s.aliased + 1
  if isExcessive decoded aliased then throw .excessiveAliases
  set { s with decoded, aliased }

/-- Runs a step on the node of an alias. -/
def follow (number target : Nat) (step : Node → Decode α) : Decode α := do
  let s ← get
  if s.following.contains number then throw .selfReference
  match s.anchors.lookup target with
  | none => throw .unknownAnchor
  | some node =>
    set { s with following := number :: s.following }
    let a ← step node
    modify fun s => { s with following := s.following.tail }
    return a

end Decode

/-- How nodes become values. Every reader gets the value so far and returns the new one, and whether
there was something to read. -/
structure Shape (α : Type) where
  /-- The name of the type in messages. -/
  name : Bytes
  /-- What the value is before anything is read. -/
  initial : α
  /-- Reads a scalar. -/
  scalar : Scalar → α → Decode (α × Bool)
  /-- Reads the items of a sequence; `none` when that is a mismatch. -/
  sequence : Option (List Node → α → Decode (α × Bool)) := none
  /-- Reads the entries of a mapping; `none` when that is a mismatch. -/
  mapping : Option (List (Node × Node) → α → Decode (α × Bool)) := none

namespace Shape

/-- Notes the keys that a mapping has twice. -/
def noteDuplicates : List (Node × Node) → Decode Bool
  | [] => return false
  | (key, _) :: rest => do
    let same := rest.filter fun (other, _) => other.keyIdentity = key.keyIdentity
    same.forM fun (other, _) => Decode.note (.duplicate other.line other.keyIdentity.2 key.line)
    let more ← noteDuplicates rest
    return more || !same.isEmpty

/-- Reads a node that is no alias. -/
private def decodeHere (s : Shape α) (node : Node) (old : α) : Decode (α × Bool) := do
  match node with
  | .aliasOf .. => throw .selfReference
  | .scalar scalar => s.scalar scalar old
  | .sequence line tag items =>
    match s.sequence with
    | some read => read items old
    | none =>
      Decode.note (.wrongType line tag [] s.name)
      return (old, false)
  | .mapping line tag entries =>
    if ← noteDuplicates entries then return (old, false)
    match s.mapping with
    | some read => read entries old
    | none =>
      Decode.note (.wrongType line tag [] s.name)
      return (old, false)

/-- Reads a node. -/
def decode (s : Shape α) (node : Node) (old : α) : Decode (α × Bool) := do
  Decode.count
  match node with
  | .aliasOf _ _ number target =>
    Decode.follow number target fun node => do
      Decode.count
      decodeHere s node old
  | node => decodeHere s node old

/-- Keeps the old value and notes a scalar of the wrong type. -/
private def mismatch (name : Bytes) (scalar : Scalar) (old : α) : Decode (α × Bool) := do
  Decode.note (.wrongType scalar.line scalar.tag scalar.text name)
  return (old, false)

/-- The value of a scalar. -/
private def valueOf (scalar : Scalar) : Decode Value :=
  match scalar.value with
  | .ok value => pure value
  | .error e => throw e

/-- Texts. Scalars of every type are taken as they are written. -/
def text : Shape Bytes where
  name := "string"
  initial := []
  scalar scalar old := do
    match ← valueOf scalar with
    | .null => return (old, false)
    | .text bytes => return (bytes, true)
    | _ => return (scalar.text, true)

/-- The texts that are accepted as true. -/
def trueTexts : List Bytes := ["y", "Y", "yes", "Yes", "YES", "on", "On", "ON"]

/-- The texts that are accepted as false. -/
def falseTexts : List Bytes := ["n", "N", "no", "No", "NO", "off", "Off", "OFF"]

/-- Truth values. -/
def flag : Shape Bool where
  name := "bool"
  initial := false
  scalar scalar old := do
    match ← valueOf scalar with
    | .null => return (old, false)
    | .bool b => return (b, true)
    | .text bytes =>
      if trueTexts.contains bytes then return (true, true)
      else if falseTexts.contains bytes then return (false, true)
      else mismatch "bool" scalar old
    | _ => mismatch "bool" scalar old

/-- Integers in 64 bits. The fraction of a floating-point number is dropped. -/
def integer : Shape Int where
  name := "int"
  initial := 0
  scalar scalar old := do
    match ← valueOf scalar with
    | .null => return (old, false)
    | .int n => if n < Double.intLimit then return (n, true) else mismatch "int" scalar old
    | .float x =>
      match x.toInt? with
      | some n => return (n, true)
      | none => mismatch "int" scalar old
    | _ => mismatch "int" scalar old

/-- Lists. A null is the empty list. -/
def listOf (s : Shape α) : Shape (List α) where
  name := "[]" ++ s.name
  initial := []
  scalar scalar old := do
    match ← valueOf scalar with
    | .null => return ([], true)
    | _ => mismatch ("[]" ++ s.name) scalar old
  sequence := some fun items _ => do
    let results ← items.mapM fun item => s.decode item s.initial
    return (results.filterMap fun (value, good) => if good then some value else none, true)

/-- Whether a node is the key that merges other mappings. -/
def isMergeKey : Node → Bool
  | .scalar s => s.text = Bytes.ofString "<<" && s.tag = mergeTag
  | _ => false

/-- The tag of a node, or of the node that an alias names. -/
private def tagOf (anchors : List (Nat × Node)) : Node → Bytes
  | .scalar s => s.tag
  | .sequence _ tag _ => tag
  | .mapping _ tag _ => tag
  | .aliasOf _ _ _ target =>
    match anchors.lookup target with
    | some (.scalar s) => s.tag
    | some (.sequence _ tag _) => tag
    | some (.mapping _ tag _) => tag
    | _ => []

/-- What a node becomes when no type is demanded. -/
inductive Untyped where
  /-- The value of a scalar. -/
  | value (v : Value)
  /-- A collection. -/
  | collection (kind : Collection)
  deriving DecidableEq, Repr

/-- Merges the mappings of a merge key with a reader of mappings. The keys of the mapping itself,
and of mappings merged before, are settled; `keyOf` reads a key of the mapping itself. -/
def merge (keyOf : Node → Decode (Option Untyped)) (entries : List (Node × Node)) (value : Node)
    (read : Node → α → Decode (α × Bool)) (old : α) : Decode α := do
  let outer := (← get).settled
  if outer.isNone then
    modify fun s => { s with settled := some [] }
    let own ← entries.filterMapM fun (key, _) => do
      match ← keyOf key with
      | none => return none
      | some (.value v) => return some v
      | some (.collection kind) => throw (.incomparableKey kind)
    modify fun s => { s with settled := some own }
  let anchors := (← get).anchors
  let isMapping (node : Node) : Bool :=
    match node with
    | .mapping .. => true
    | .aliasOf _ _ _ target =>
      match anchors.lookup target with
      | some (.mapping ..) => true
      | none => true
      | _ => false
    | _ => false
  let parts :=
    match value with
    | .sequence _ _ items => items
    | node => [node]
  let result ← parts.foldlM (fun old part => do
    unless isMapping part do throw .mergeValue
    let (value, _) ← read part old
    return value) old
  if outer.isNone then modify fun s => { s with settled := none }
  return result

/-- How the keys of a mapping are read: a reader that is told whether keys are compared, and the
value by which they are compared. -/
structure KeyReader (κ : Type) where
  /-- Reads a key; `none` when there is none to read. -/
  read : Bool → Node → Decode (Option κ)
  /-- The value of a key. -/
  value : κ → Value

/-- Reads entries one by one, where settled keys are skipped, and merges what the merge key gives.
-/
def readEntriesBy (keys : KeyReader κ) (keyOf : Node → Decode (Option Untyped))
    (entries : List (Node × Node)) (entry : κ → Node → Node → α → Decode α)
    (again : Node → α → Decode (α × Bool)) (old : α) : Decode α := do
  let settled := (← get).settled
  modify fun s => { s with settled := none }
  let (result, settled) ← entries.foldlM (fun (old, settled) (key, value) => do
    if isMergeKey key then return (old, settled)
    match ← keys.read settled.isSome key with
    | none => return (old, settled)
    | some k =>
      match settled with
      | none => return (← entry k key value old, none)
      | some known =>
        if known.contains (keys.value k) then return (old, some known)
        return (← entry k key value old, some (keys.value k :: known))) (old, settled)
  modify fun s => { s with settled }
  match entries.reverse.find? fun (key, _) => isMergeKey key with
  | none => return result
  | some (_, value) => merge keyOf entries value again result

/-- Reads keys as texts. -/
def textKeys : KeyReader Bytes where
  read _ key := do
    let (name, good) ← text.decode key []
    return if good then some name else none
  value := .text

/-- Reads a key that may not be a collection. -/
private def plainKey (keyOf : Node → Decode (Option Untyped)) : KeyReader Value where
  read compared key := do
    match ← keyOf key with
    | none => return none
    | some (.value v) => return some v
    | some (.collection kind) =>
      throw (if compared then .incomparableKey kind else .collectionKey)
  value := id

/-- Reads the entries of a dictionary whose values have no demanded type. -/
private def untypedEntries (value : Node → Decode (Option Untyped)) (kind : Collection)
    (again : Node → Unit → Decode (Unit × Bool)) (entries : List (Node × Node)) : Decode Unit :=
  let entry {κ : Type} (_ : κ) (_ item : Node) (_ : Unit) : Decode Unit := discard (value item)
  if kind = .textDict then readEntriesBy textKeys value entries entry again ()
  else readEntriesBy (plainKey value) value entries entry again ()

/-- A shape that reads a mapping into a dictionary of a kind, to any depth of merged mappings. -/
private def untypedDict (value : Node → Decode (Option Untyped)) (kind : Collection) :
    Nat → Shape Unit
  | 0 => { name := kind.text, initial := (), scalar := fun _ _ => return ((), false) }
  | n + 1 =>
    { name := kind.text
      initial := ()
      scalar := fun scalar old => mismatch kind.text scalar old
      mapping := some fun entries _ => do
        untypedEntries value kind (fun node _ => (untypedDict value kind n).decode node ()) entries
        return ((), true) }

/-- Reads a node for which no type is demanded; `none` when it is refused. -/
def untyped : Nat → Node → Decode (Option Untyped)
  | 0, _ => throw .selfReference
  | n + 1, node => do
    let here (node : Node) : Decode (Option Untyped) := do
      match node with
      | .aliasOf .. => throw .selfReference
      | .scalar s => return some (.value (← valueOf s))
      | .sequence _ _ items =>
        items.forM fun item => discard (untyped n item)
        return some (.collection .list)
      | .mapping _ _ entries =>
        if ← noteDuplicates entries then return none
        let anchors := (← get).anchors
        let isText (key : Node) : Bool := [strTag, mergeTag].contains (tagOf anchors key)
        let kind := if entries.all fun (key, _) => isText key then .textDict else .dict
        untypedEntries (untyped n) kind
          (fun node _ => (untypedDict (untyped n) kind n).decode node ()) entries
        return some (.collection kind)
    Decode.count
    match node with
    | .aliasOf _ _ number target =>
      Decode.follow number target fun node => do
        Decode.count
        here node
    | node => here node

/-- Reads entries with texts as keys one by one, where settled keys are skipped, and merges what the
merge key gives. -/
def readEntries (entries : List (Node × Node)) (entry : Bytes → Node → Node → α → Decode α)
    (again : Node → α → Decode (α × Bool)) (old : α) : Decode α := do
  readEntriesBy textKeys (untyped (← get).depth) entries entry again old

/-- Whether a node, or the node that an alias names, is null. -/
def isNullNode (anchors : List (Nat × Node)) : Node → Bool
  | .scalar s => s.tag = nullTag
  | .aliasOf _ _ _ target =>
    match anchors.lookup target with
    | some (.scalar s) => s.tag = nullTag
    | _ => false
  | _ => false

/-- Dictionaries with texts as keys, in the order in which the keys came. -/
def dictOf (s : Shape α) : Nat → Shape (List (Bytes × α))
  | 0 => { name := [], initial := [], scalar := fun _ old => return (old, false) }
  | fuel + 1 =>
    { name := "map[string]" ++ s.name
      initial := []
      scalar := fun scalar old => do
        match ← valueOf scalar with
        | .null => return ([], true)
        | _ => mismatch ("map[string]" ++ s.name) scalar old
      mapping := some fun entries old => do
        let result ← readEntries entries (fun name _ value dict => do
          let (item, good) ← s.decode value s.initial
          let isNew := old.isEmpty || (dict.lookup name).isNone
          let isNull := isNullNode (← get).anchors value
          if good || (isNull && isNew) then
            return dict.filter (fun (other, _) => other != name) ++ [(name, item)]
          return dict) (fun node dict => (dictOf s fuel).decode node dict) old
        return (result, true) }

/-- A field of a record. -/
structure Field (σ : Type) where
  /-- The name of the field. -/
  name : Bytes
  /-- Reads the value of the field. -/
  decode : Node → σ → Decode σ

/-- A field with a shape. -/
def field (name : String) (s : Shape α) (get : σ → α) (set : α → σ → σ) : Field σ where
  name := name
  decode node record := do
    let (value, _) ← s.decode node (get record)
    return set value record

/-- Records with named fields. -/
def record (name : Bytes) (initial : σ) (fields : List (Field σ)) : Nat → Shape σ
  | 0 => { name, initial, scalar := fun _ old => return (old, false) }
  | fuel + 1 =>
    { name
      initial
      scalar := fun scalar old => do
        match ← valueOf scalar with
        | .null => return (old, false)
        | _ => mismatch name scalar old
      mapping := some fun entries old => do
        let (result, _) ← readEntries entries (fun key node value (old, done) => do
          match fields.find? fun field => field.name = key with
          | none =>
            if (← get).strict then Decode.note (.unknownField node.line key name)
            return (old, done)
          | some field =>
            if done.contains key then
              Decode.note (.repeatedField node.line key name)
              return (old, done)
            return (← field.decode value old, key :: done))
          (fun node (old, done) => do
            let (value, good) ← (record name initial fields fuel).decode node old
            return ((value, done), good)) (old, ([] : List Bytes))
        return (result, true) }

end Shape

/-- Why a text cannot be decoded. -/
inductive DecodeError where
  /-- It is no YAML document. -/
  | malformed (fault : Fault)
  /-- A key that has to be compared with others is a collection. -/
  | incomparable (kind : Collection)
  /-- It does not have the expected shape. -/
  | mismatches (all : List Mismatch)
  deriving DecidableEq, Repr

/-- The error of a fault. -/
def DecodeError.ofFault : Fault → DecodeError
  | .incomparableKey kind => incomparable kind
  | fault => malformed fault

/-- The wording of an error. All texts that are no documents are reported alike. -/
def DecodeError.message : DecodeError → Bytes
  | malformed _ => "yaml"
  | incomparable kind => "runtime error: hash of unhashable type " ++ Bytes.ofString kind.text
  | mismatches all => "yaml: unmarshal errors:\n  " ++ Bytes.join "\n  " (all.map Mismatch.message)

/-- Decodes the first document of a text into a value; `none` when there is no document. The shape
may take as many steps through merged mappings as it is told. -/
def decode? (strict : Bool) (shape : Nat → Shape α) (s : Bytes) (old : α) :
    Except DecodeError (Option α) := do
  match ← (parse s).mapError DecodeError.malformed with
  | none => return none
  | some document =>
    let steps := (document.size + 1) * (document.anchors.length + 1)
    let start : Decoding := { anchors := document.anchors, strict, depth := steps }
    let ((value, _), state) ←
      ((shape steps).decode document.root old start).mapError DecodeError.ofFault
    unless state.mismatches.isEmpty do throw (.mismatches state.mismatches.reverse)
    return some value

end ReturnAudit.Yaml
