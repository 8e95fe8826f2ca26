import ReturnAudit.Yaml.Directive
import ReturnAudit.Yaml.Scalar

/-!
# Scanning YAML text

Tokens are read one after another into a queue. A scalar, a flow collection or an alias may turn out
to be a key only when the colon behind it is found; the key token is then put before it. Two tokens
are always read ahead of the one that is handed out, and more as long as the token to be handed out
is registered as the possible start of a key. An empty flow collection loses its registration when
it is closed; when it is handed out before the colon behind it is found, the key token goes to the
end of the queue.
-/

namespace ReturnAudit.Yaml

/-- A place at which a key without an indicator may start. -/
structure SimpleKey where
  /-- Whether a key may still start there. -/
  possible : Bool := false
  /-- Whether a key has to start there, because the block has that column. -/
  required : Bool := false
  /-- The number of the token that would start it. -/
  tokenNumber : Nat := 0
  /-- Where it would start. -/
  index : Nat := 0
  /-- The line on which it would start. -/
  line : Nat := 0
  /-- The column at which it would start. -/
  column : Nat := 0
  deriving DecidableEq, Repr

/-- The state of scanning. -/
structure Scanner where
  /-- Where the next token is looked for. -/
  cursor : Cursor
  /-- Whether the start of the text was handed out. -/
  started : Bool := false
  /-- Tokens that are not handed out yet. -/
  queue : List Token := []
  /-- How many tokens were handed out. -/
  taken : Nat := 0
  /-- The column of the innermost block, if there is one. -/
  indent : Option Nat := none
  /-- The columns of the blocks around it. -/
  indents : List (Option Nat) := []
  /-- Whether a key without an indicator may start at the cursor. -/
  keyAllowed : Bool := true
  /-- The possible key of the block context. -/
  blockKey : SimpleKey := {}
  /-- The possible keys of the open flow collections, innermost first. -/
  flowKeys : List SimpleKey := []
  /-- The numbers of tokens that are waited for as possible starts of keys, each with the number of
  flow collections that were open around it. -/
  registered : List (Nat × Nat) := []
  deriving DecidableEq, Repr

/-- A step of scanning. -/
abbrev Scan := StateT Scanner (Except Fault)

namespace Scan

/-- The farthest that the colon may stand from the start of a key. -/
def keyReach : Nat := 1024

/-- How deep collections may nest. -/
def maxDepth : Nat := 10000

/-- Refuses the text. -/
def refuse : Scan α :=
  throw .token

/-- Whether a flow collection is open. -/
def inFlow : Scan Bool :=
  return !(← get).flowKeys.isEmpty

/-- The possible key at a depth of open flow collections. -/
def keyAt (depth : Nat) : Scan SimpleKey :=
  return let s := ← get; (s.blockKey :: s.flowKeys.reverse).getD depth {}

/-- Replaces the possible key at a depth of open flow collections. -/
def setKeyAt (depth : Nat) (key : SimpleKey) : Scan Unit :=
  modify fun s =>
    if depth = 0 then { s with blockKey := key }
    else { s with flowKeys := s.flowKeys.set (s.flowKeys.length - depth) key }

/-- The number of open flow collections. -/
def depth : Scan Nat :=
  return (← get).flowKeys.length

/-- Waits no longer for a token as a possible start of a key. -/
def unregister (number : Nat) : Scan Unit :=
  modify fun s => { s with registered := s.registered.filter fun (other, _) => other != number }

/-- Reads with a reader that moves the cursor. -/
def reading (reader : Reader α) : Scan α := do
  match reader (← get).cursor with
  | .error e => throw e
  | .ok (a, cursor) =>
    modify fun s => { s with cursor }
    return a

/-- Whether keys may start at the cursor from now on. -/
def allowKey (allowed : Bool) : Scan Unit :=
  modify fun s => { s with keyAllowed := allowed }

/-- Puts a token at the end of the queue. -/
def enqueue (kind : TokenKind) (line : Nat) : Scan Unit :=
  modify fun s => { s with queue := s.queue ++ [⟨kind, line⟩] }

/-- Puts a token before the token with a number, or at the end of the queue when that token has been
handed out. -/
def insertAt (number : Nat) (kind : TokenKind) (line : Nat) : Scan Unit := do
  let s ← get
  if number < s.taken then enqueue kind line
  else
    let (before, after) := s.queue.splitAt (number - s.taken)
    set { s with queue := before ++ Token.mk kind line :: after }

/-- Gives up the possible key of the innermost collection. -/
def dropKey : Scan Unit := do
  let depth ← depth
  let key ← keyAt depth
  if key.possible then
    if key.required then refuse
    setKeyAt depth { key with possible := false }
    unregister key.tokenNumber

/-- Notes that a key may start at the cursor. -/
def saveKey : Scan Unit := do
  let s ← get
  if s.keyAllowed then
    let c := s.cursor
    let number := s.taken + s.queue.length
    dropKey
    unregister number
    let depth ← depth
    setKeyAt depth
      { possible := true, required := s.flowKeys.isEmpty && s.indent == some c.column
        tokenNumber := number, index := c.index, line := c.line, column := c.column }
    modify fun s => { s with registered := (number, depth) :: s.registered }

/-- Whether the possible key at a depth has not been left behind: the cursor is on its line and
within reach. A key that was left behind is given up. -/
def isReachable (depth : Nat) : Scan Bool := do
  let key ← keyAt depth
  let c := (← get).cursor
  if !key.possible then return false
  if key.line == c.line && c.index ≤ key.index + keyReach then return true
  if key.required then refuse
  setKeyAt depth { key with possible := false }
  unregister key.tokenNumber
  return false

/-- Opens a block at a column to the right of the innermost one. The token goes before the token
with the given number, or to the end of the queue. -/
def openBlock (column : Nat) (number : Option Nat) (kind : TokenKind) (line : Nat) : Scan Unit := do
  let s ← get
  if s.flowKeys.isEmpty && s.indent.all (· < column) then
    if maxDepth ≤ s.indents.length then refuse
    set { s with indents := s.indent :: s.indents, indent := some column }
    match number with
    | some number => insertAt number kind line
    | none => enqueue kind line

/-- Closes the blocks to the right of a column; the list holds the indentations around the current
one. -/
private def closeFrom (column : Option Nat) (line : Nat) : List (Option Nat) → Scanner → Scanner
  | [], s => s
  | outer :: rest, s =>
    if s.indent.any fun own => column.all (· < own) then
      closeFrom column line rest
        { s with queue := s.queue ++ [⟨.blockEnd, line⟩], indent := outer, indents := rest }
    else s

/-- Closes the blocks to the right of a column, or all blocks. -/
def closeBlocks (column : Option Nat) (line : Nat) : Scan Unit :=
  modify fun s => if s.flowKeys.isEmpty then closeFrom column line s.indents s else s

/-- Skips blanks, comments and line ends before the next token. A tab does not belong to the blanks
where a key may start. Where a line starts, one character is skipped if the window starts with a
byte order mark. -/
def skipToToken : Nat → Scan Unit
  | 0 => return
  | n + 1 => do
    let s ← get
    let tabs := !s.flowKeys.isEmpty || !s.keyAllowed
    reading do
      Reader.need 1
      let c ← get
      if c.column == 0 && c.windowIsMarked then Reader.skip
      Reader.need 1
      Reader.skipWhile fun p => p == 32 || (tabs && p == 9)
      if (← get).isAt '#' then Reader.skipComments c.total
    if (← get).cursor.atBreak then
      reading Reader.skipBreak
      modify fun s => { s with keyAllowed := s.keyAllowed || s.flowKeys.isEmpty }
      skipToToken n

/-- Reads a token that consists of one character. -/
def indicator (kind : TokenKind) : Scan Unit := do
  let line := (← get).cursor.line
  reading Reader.skip
  enqueue kind line

/-- Reads a document mark or a directive, before which all blocks end. -/
def betweenDocuments (read : Reader TokenKind) : Scan Unit := do
  let line := (← get).cursor.line
  closeBlocks none line
  dropKey
  allowKey false
  let kind ← reading read
  enqueue kind line

/-- Reads the end of the text. -/
def streamEnd : Scan Unit := do
  reading (modify fun c => if c.column == 0 then c else { c with column := 0, line := c.line + 1 })
  let line := (← get).cursor.line
  closeBlocks none line
  dropKey
  allowKey false
  enqueue .streamEnd line

/-- Reads an opening bracket or brace. -/
def flowStart (kind : TokenKind) : Scan Unit := do
  saveKey
  let s ← get
  if maxDepth ≤ s.flowKeys.length then refuse
  set { s with flowKeys := { tokenNumber := s.taken + s.queue.length } :: s.flowKeys }
  allowKey true
  indicator kind

/-- Reads a closing bracket or brace. -/
def flowEnd (kind : TokenKind) : Scan Unit := do
  dropKey
  if let key :: outer := (← get).flowKeys then
    unregister key.tokenNumber
    modify fun s => { s with flowKeys := outer }
  allowKey false
  indicator kind

/-- Reads a comma. -/
def flowEntry : Scan Unit := do
  dropKey
  allowKey true
  indicator .flowEntry

/-- Reads a hyphen before an entry. -/
def blockEntry : Scan Unit := do
  let s ← get
  if s.flowKeys.isEmpty then
    unless s.keyAllowed do refuse
    openBlock s.cursor.column none .blockSequenceStart s.cursor.line
  dropKey
  allowKey true
  indicator .blockEntry

/-- Reads a question mark before a key. -/
def explicitKey : Scan Unit := do
  let s ← get
  if s.flowKeys.isEmpty then
    unless s.keyAllowed do refuse
    openBlock s.cursor.column none .blockMappingStart s.cursor.line
  dropKey
  allowKey s.flowKeys.isEmpty
  indicator .key

/-- Reads a colon before a value. -/
def mappingValue : Scan Unit := do
  let depth ← depth
  if ← isReachable depth then
    let key ← keyAt depth
    insertAt key.tokenNumber .key key.line
    openBlock key.column (some key.tokenNumber) .blockMappingStart key.line
    setKeyAt depth { key with possible := false }
    unregister key.tokenNumber
    allowKey false
  else
    let s ← get
    if s.flowKeys.isEmpty then
      unless s.keyAllowed do refuse
      openBlock s.cursor.column none .blockMappingStart s.cursor.line
    allowKey s.flowKeys.isEmpty
  indicator .value

/-- Reads a token that may start a key. -/
def keyedToken (read : Reader TokenKind) : Scan Unit := do
  saveKey
  allowKey false
  let line := (← get).cursor.line
  let kind ← reading read
  enqueue kind line

/-- Reads a block scalar. -/
def blockScalar (literal : Bool) : Scan Unit := do
  dropKey
  allowKey true
  let s ← get
  let text ← reading do
    Reader.skip
    readBlock literal s.indent
  enqueue (.scalar (Utf8.encode text) false) s.cursor.line

/-- Reads a plain scalar. A line end behind it lets a key start. -/
def plainScalar : Scan Unit := do
  saveKey
  allowKey false
  let s ← get
  let least := s.indent.elim 0 (· + 1)
  let (text, broken) ← reading (readPlain (!s.flowKeys.isEmpty) least (s.cursor.total + 1) [] {})
  if broken then allowKey true
  enqueue (.scalar (Utf8.encode text) true) s.cursor.line

/-- Reads a scalar in quotes. -/
private def readQuotedToken (single : Bool) : Reader TokenKind := do
  Reader.skip
  let text ← readQuoted single ((← get).total + 1) []
  return .scalar (Utf8.encode text) false

/-- Reads an anchor or an alias. -/
private def readNamedToken (kind : Bytes → TokenKind) : Reader TokenKind := do
  Reader.skip
  return kind (← readAnchorName)

/-- Whether a plain scalar may start at the cursor. -/
def startsPlain (flow : Bool) (c : Cursor) : Bool :=
  match c.peek with
  | none => false
  | some p =>
    let isIndicator := ("-?:,[]\x7b\x7d#&*!|>'\"%@`".toList.map Char.toNat).contains p
    !(isBlank p || isBreak p || isIndicator)
      || (p == 45 && !(c.skip.atBlank))
      || (!flow && (p == 63 || p == 58) && !c.endsAt 1)

/-- Reads the token at the cursor that is neither a document mark nor a directive. -/
def contentToken : Scan Unit := do
  let c := (← get).cursor
  let flow ← inFlow
  if c.isAt '[' then flowStart .flowSequenceStart
  else if c.isAt '\x7b' then flowStart .flowMappingStart
  else if c.isAt ']' then flowEnd .flowSequenceEnd
  else if c.isAt '\x7d' then flowEnd .flowMappingEnd
  else if c.isAt ',' then flowEntry
  else if c.isAt '-' && c.endsAt 1 then blockEntry
  else if c.isAt '?' && (flow || c.endsAt 1) then explicitKey
  else if c.isAt ':' && (flow || c.endsAt 1) then mappingValue
  else if c.isAt '*' then keyedToken (readNamedToken .aliasOf)
  else if c.isAt '&' then keyedToken (readNamedToken .anchor)
  else if c.isAt '!' then keyedToken readTag
  else if c.isAt '|' && !flow then blockScalar true
  else if c.isAt '>' && !flow then blockScalar false
  else if c.isAt '\'' then keyedToken (readQuotedToken true)
  else if c.isAt '"' then keyedToken (readQuotedToken false)
  else if startsPlain flow c then plainScalar
  else refuse

/-- Reads the next token into the queue. -/
def fetch : Scan Unit := do
  reading (Reader.need 1)
  let s ← get
  if !s.started then
    set { s with started := true }
    enqueue .streamStart 0
  else
    let line := s.cursor.line
    skipToToken (s.cursor.total + 1)
    closeBlocks (some (← get).cursor.column) line
    reading (Reader.need 4)
    let c := (← get).cursor
    if c.rest.isEmpty then streamEnd
    else if c.column == 0 && c.isAt '%' then betweenDocuments readDirective
    else if c.atDocumentMark then
      let kind := if c.isAt '-' then TokenKind.documentStart else .documentEnd
      betweenDocuments do
        modify (Cursor.skipMany 3)
        return kind
    else
      contentToken
      if (← get).queue.getLast?.all fun token => token.kind != .blockEntry then
        reading Reader.skipLineComment

/-- Whether the token at the head of the queue may still get a key token before it. -/
def headMayBeKey : Scan Bool := do
  let s ← get
  match s.registered.lookup s.taken with
  | none => return false
  | some depth => isReachable depth

/-- Fetches tokens until the head of the queue is final. -/
private def fill : Nat → Scan Unit
  | 0 => refuse
  | n + 1 => do
    let ready ← if 2 < (← get).queue.length then (! ·) <$> headMayBeKey else pure false
    unless ready do
      fetch
      fill n

/-- The next token, which stays in the queue. -/
def peek : Scan Token := do
  let s ← get
  fill (s.cursor.total + s.queue.length + 8)
  match (← get).queue with
  | token :: _ => return token
  | [] => refuse

/-- Hands out the next token. -/
def take : Scan Token := do
  let token ← peek
  modify fun s => { s with queue := s.queue.tail, taken := s.taken + 1 }
  return token

end Scan

end ReturnAudit.Yaml
