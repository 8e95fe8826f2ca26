import ReturnAudit.Yaml.Source

/-!
# Reading positions in YAML text

A cursor is what is left of a text together with the place where it starts. Five characters end a
line; a carriage return followed by a line feed ends one line. The end of the text counts as blank
where a token asks what follows it.

Before a reader looks at characters it asks for as many of them as it needs. Only that makes further
pieces of the text be read, so a fault in a piece that no reader asks for stays unnoticed.
-/

namespace ReturnAudit.Yaml

/-- The kinds of collections that a node without a demanded type becomes. -/
inductive Collection where
  /-- A list. -/
  | list
  /-- A dictionary all of whose keys are texts. -/
  | textDict
  /-- A dictionary with keys of any type. -/
  | dict
  deriving DecidableEq, Repr

/-- The name of a kind of collection in messages. -/
def Collection.text : Collection → String
  | list => "[]interface \x7b\x7d"
  | textDict => "map[string]interface \x7b\x7d"
  | dict => "map[interface \x7b\x7d]interface \x7b\x7d"

/-- Why a text is no YAML document. -/
inductive Fault where
  /-- The bytes are not well formed, or a character may not occur. -/
  | character
  /-- A token is malformed or stands where it may not. -/
  | token
  /-- The tokens do not form a document. -/
  | arrangement
  /-- An alias names no anchor. -/
  | unknownAnchor
  /-- An alias stands inside the node that it names. -/
  | selfReference
  /-- Aliases make up too much of a document. -/
  | excessiveAliases
  /-- A scalar is not of the type that its tag names. -/
  | taggedValue
  /-- The value of a merge key is neither a mapping nor a list of mappings. -/
  | mergeValue
  /-- A key of a dictionary is a collection. -/
  | collectionKey
  /-- A key that has to be compared with others is a collection. -/
  | incomparableKey (kind : Collection)
  deriving DecidableEq, Repr

/-- Whether a character ends a line. -/
def isBreak (p : Nat) : Bool :=
  p == 10 || p == 13 || p == 0x85 || p == 0x2028 || p == 0x2029

/-- Whether a character is a space or a tab. -/
def isBlank (p : Nat) : Bool :=
  p == 32 || p == 9

/-- Whether a character may occur in names of anchors, directives and tag handles. -/
def isNameChar (p : Nat) : Bool :=
  (48 ≤ p && p ≤ 57) || (65 ≤ p && p ≤ 90) || (97 ≤ p && p ≤ 122) || p == 95 || p == 45

/-- Whether a character is a decimal digit. -/
def isDigit (p : Nat) : Bool :=
  48 ≤ p && p ≤ 57

/-- The value of a hexadecimal digit. -/
def hexDigit? (p : Nat) : Option Nat :=
  if 48 ≤ p && p ≤ 57 then some (p - 48)
  else if 65 ≤ p && p ≤ 70 then some (p - 55)
  else if 97 ≤ p && p ≤ 102 then some (p - 87)
  else none

/-- The part of a text that is held for reading. It is moved to the current place whenever
characters behind its end are asked for. -/
structure Window where
  /-- The first character in it. -/
  first : Option Nat := none
  /-- How many characters of the text come before its end. The end of the text counts as a further
  character each time that it is asked for. -/
  stop : Nat := 0
  /-- The ends of the pieces of the text that have not been read. -/
  ahead : List Nat
  /-- Whether a character that cannot be read follows these pieces. -/
  faulty : Bool
  deriving DecidableEq, Repr

/-- A place in a text. -/
structure Cursor where
  /-- The characters from the place on. -/
  rest : List Nat
  /-- How many characters the whole text has; no reader takes more steps than that. -/
  total : Nat
  /-- What is held of the text. -/
  window : Window
  /-- How many characters come before it. -/
  index : Nat := 0
  /-- How many lines come before it. -/
  line : Nat := 0
  /-- How many characters of its line come before it. -/
  column : Nat := 0
  /-- Whether only blanks and line ends were read since the last line end. -/
  afterBreak : Bool := false
  deriving DecidableEq, Repr

namespace Cursor

/-- The start of a text. -/
def start (text : Source) : Cursor :=
  { rest := text.points, total := text.points.length
    window := { ahead := text.pieceEnds, faulty := text.faulty } }

/-- The next character. -/
def peek (c : Cursor) : Option Nat :=
  c.rest.head?

/-- Whether the next character is the given one. -/
def isAt (c : Cursor) (char : Char) : Bool :=
  c.rest.head? == some char.toNat

/-- Whether a blank, a line end or the end of the text stands some characters ahead. -/
def endsAt (c : Cursor) (ahead : Nat) : Bool :=
  ((c.rest.drop ahead).head?).all fun p => isBlank p || isBreak p

/-- Whether a line end or the end of the text comes next. -/
def atLineEnd (c : Cursor) : Bool :=
  c.rest.head?.all isBreak

/-- Whether a line end comes next. -/
def atBreak (c : Cursor) : Bool :=
  c.rest.head?.any isBreak

/-- Whether a space or a tab comes next. -/
def atBlank (c : Cursor) : Bool :=
  c.rest.head?.any isBlank

/-- The place after the next character, which does not end a line. -/
def skip (c : Cursor) : Cursor :=
  match c.rest with
  | [] => c
  | p :: rest =>
    { c with rest, index := c.index + 1, column := c.column + 1,
             afterBreak := isBlank p && c.afterBreak }

/-- The place after some characters, which do not end a line. -/
def skipMany : Nat → Cursor → Cursor
  | 0, c => c
  | n + 1, c => skipMany n c.skip

/-- The place after the line end that comes next. -/
def skipBreak (c : Cursor) : Cursor :=
  match c.rest with
  | 13 :: 10 :: rest => nextLine rest 2
  | p :: rest => if isBreak p then nextLine rest 1 else c
  | [] => c
where
  /-- The start of the next line, when the line end takes `width` characters. -/
  nextLine (rest : List Nat) (width : Nat) : Cursor :=
    { c with rest, index := c.index + width, line := c.line + 1, column := 0, afterBreak := true }

/-- What the line end that comes next reads as: a line feed, but for the two Unicode separators. -/
def breakText (c : Cursor) : List Nat :=
  match c.rest with
  | p :: _ => if p == 0x2028 || p == 0x2029 then [p] else if isBreak p then [10] else []
  | [] => []

/-- Whether a line of three hyphens or three dots starts here. -/
def atDocumentMark (c : Cursor) : Bool :=
  c.column == 0 && c.endsAt 3
    && (c.rest.take 3 == [45, 45, 45] || c.rest.take 3 == [46, 46, 46])

/-- Whether the character at the start of the window is a byte order mark. -/
def windowIsMarked (c : Cursor) : Bool :=
  c.window.first == some 0xFEFF

/-- Reads pieces up to a goal and returns where the window ends then, and the pieces ahead of it. -/
private def readTo (goal : Nat) (faulty : Bool) : Nat → List Nat → Option (Nat × List Nat)
  | stop, [] => if faulty then none else some (stop + 1, [])
  | _, stop :: ahead => if goal ≤ stop then some (stop, ahead) else readTo goal faulty stop ahead

/-- The cursor when the window holds `n` more characters, and whether these can be read. -/
def hold (n : Nat) (c : Cursor) : Cursor × Bool :=
  let w := c.window
  if c.index + n ≤ w.stop then (c, true)
  else
    match readTo (c.index + n) w.faulty w.stop w.ahead with
    | some (stop, ahead) => ({ c with window := { w with first := c.peek, stop, ahead } }, true)
    | none =>
      ({ c with window := { w with first := c.peek, stop := c.total, ahead := [] } }, false)

end Cursor

/-- A step that reads from a text. -/
abbrev Reader := StateT Cursor (Except Fault)

namespace Reader

/-- Refuses the text. -/
def refuse : Reader α :=
  throw .token

/-- Refuses the text unless a condition holds. -/
def expect (condition : Cursor → Bool) : Reader Unit := do
  unless condition (← get) do refuse

/-- Asks for characters; it is a fault when they cannot be read. -/
def need (n : Nat) : Reader Unit := do
  let (c, readable) := (← get).hold n
  set c
  unless readable do throw .character

/-- Asks for characters and tells whether they can be read. -/
def canHold (n : Nat) : Reader Bool := do
  let (c, readable) := (← get).hold n
  set c
  return readable

/-- Skips a character that does not end a line. -/
def skip : Reader Unit :=
  modify Cursor.skip

/-- Skips a line end, if one comes next. -/
def skipBreak : Reader Unit := do
  need 2
  modify Cursor.skipBreak

/-- Reads a line end, if one comes next, as what it stands for. -/
def readBreak : Reader (List Nat) := do
  need 2
  let c ← get
  set c.skipBreak
  return c.breakText

/-- Takes at most `n` characters with a property; `taken` are those before, last first. -/
private def takeWhileUpTo (p : Nat → Bool) : Nat → List Nat → Reader (List Nat)
  | 0, taken => return taken.reverse
  | n + 1, taken => do
    let c ← get
    match c.peek with
    | some point =>
      if p point then
        set c.skip
        need 1
        takeWhileUpTo p n (point :: taken)
      else return taken.reverse
    | none => return taken.reverse

/-- Reads the characters of one line that come next and have a property. -/
def takeWhile (p : Nat → Bool) : Reader (List Nat) := do
  takeWhileUpTo p ((← get).total + 1) []

/-- Skips the characters of one line that come next and have a property. -/
def skipWhile (p : Nat → Bool) : Reader Unit :=
  discard (takeWhile p)

/-- Skips the rest of a line, but not its end. -/
def skipLine : Reader Unit :=
  skipWhile fun p => !isBreak p

/-- The number of characters that are looked through for a comment. -/
def commentReach : Nat := 512

/-- How far ahead a comment starts that only characters with a property come before. The characters
from the place `offset` ahead on are given. -/
private def commentAhead (passes : Nat → Bool) : Nat → Nat → List Nat → Reader (Option Nat)
  | 0, _, _ => return none
  | n + 1, offset, rest => do
    unless ← canHold (offset + 1) do return none
    match rest with
    | [] => return none
    | p :: rest =>
      if p == 35 then return some offset
      if passes p then commentAhead passes n (offset + 1) rest
      else
        if isBreak p then discard (canHold (offset + 2))
        return none

/-- Skips blanks and line ends up to an index. -/
private def skipTo (index : Nat) : Nat → Reader Unit
  | 0 => return
  | n + 1 => do
    need 1
    let c ← get
    if c.index < index then
      if c.atBreak then skipBreak else skip
      skipTo index n

/-- Skips a comment on the line of the last token. -/
def skipLineComment : Reader Unit := do
  let c ← get
  unless c.afterBreak do
    if let some offset ← commentAhead isBlank commentReach 0 c.rest then
      skipTo (c.index + offset) (offset + 1)
      skipLine

/-- Skips a comment and the comments that follow with only blanks and line ends between, where the
line ends are line feeds and carriage returns; the cursor stands at the number sign. -/
def skipComments : Nat → Reader Unit
  | 0 => return
  | n + 1 => do
    need 1
    skipLine
    let c ← get
    if c.isAt '\n' || c.isAt '\r' then
      let passes (p : Nat) : Bool := isBlank p || p == 10 || p == 13
      if let some offset ← commentAhead passes (commentReach - 1) 1 (c.rest.drop 1) then
        skipTo (c.index + offset) (offset + 1)
        skipComments n
    else discard (canHold 2)

end Reader

end ReturnAudit.Yaml
