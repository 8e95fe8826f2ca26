import ReturnAudit.Yaml.Cursor

/-!
# Scalars of YAML text

The three ways of writing a scalar: plain, in quotes, and as an indented block. Line ends inside a
plain or quoted scalar are folded: a single one becomes a space and of several the first is dropped.
-/

namespace ReturnAudit.Yaml

open Reader

/-- The blanks and line ends between two parts of a scalar. -/
structure Gap where
  /-- The blanks, when there is no line end, last first. -/
  blanks : List Nat := []
  /-- The first line end; it may be escaped and is then empty. -/
  leading : List Nat := []
  /-- The other line ends, last first. -/
  trailing : List Nat := []
  /-- Whether there was a line end. -/
  broken : Bool := false
  deriving DecidableEq, Repr

/-- What a gap stands for in the scalar, last character first. -/
def Gap.text (g : Gap) : List Nat :=
  if !g.broken then g.blanks
  else if g.leading.head? == some 10 then
    if g.trailing.isEmpty then [32] else g.trailing
  else g.trailing ++ g.leading

/-- Reads blanks and line ends. A tab before the column `least` of a new line is refused. -/
def readGap (least : Nat) : Nat → Gap → Reader Gap
  | 0, g => return g
  | n + 1, g => do
    let c ← get
    if c.atBlank then
      if g.broken && c.column < least && c.isAt '\t' then refuse
      skip
      need 1
      readGap least n (if g.broken then g else { g with blanks := c.peek.toList ++ g.blanks })
    else if c.atBreak then
      let text ← readBreak
      need 1
      readGap least n
        (if g.broken then { g with trailing := text ++ g.trailing }
        else { g with blanks := [], leading := text, broken := true })
    else return g

/-- Whether a plain scalar ends before the next character. -/
def endsPlain (inFlow : Bool) (c : Cursor) : Bool :=
  match c.peek with
  | none => true
  | some p =>
    isBlank p || isBreak p || (p == 58 && c.endsAt 1)
      || (inFlow && [44, 63, 91, 93, 123, 125].contains p)

/-- Reads the characters of a plain scalar up to a blank or an indicator, and returns them last
first behind what was read before. -/
def readPlainPart (inFlow : Bool) : Nat → List Nat → Reader (List Nat)
  | 0, text => return text
  | n + 1, text => do
    let c ← get
    if endsPlain inFlow c then return text
    skip
    need 2
    readPlainPart inFlow n (c.peek.toList ++ text)

/-- Reads a plain scalar. In block context it ends before the column `least` of a new line. What was
read before is given last character first. The second component tells whether a line end was read
after the scalar. -/
def readPlain (inFlow : Bool) (least : Nat) : Nat → List Nat → Gap → Reader (List Nat × Bool)
  | 0, text, g => return (text.reverse, g.broken)
  | n + 1, text, g => do
    need 4
    let c ← get
    if c.atDocumentMark || c.isAt '#' then return (text.reverse, g.broken)
    let isEmpty := endsPlain inFlow c
    let text ← if isEmpty then pure text else readPlainPart inFlow c.total (g.text ++ text)
    let g := if isEmpty then g else {}
    let c ← get
    unless c.atBlank || c.atBreak do return (text.reverse, g.broken)
    need 1
    let g ← readGap least c.total g
    if !inFlow && (← get).column < least then return (text.reverse, g.broken)
    readPlain inFlow least n text g

/-- The escapes of double-quoted scalars that stand for one character. -/
def escapes : List (Char × Nat) :=
  [('0', 0), ('a', 7), ('b', 8), ('t', 9), ('\t', 9), ('n', 10), ('v', 11), ('f', 12), ('r', 13),
    ('e', 27), (' ', 32), ('"', 34), ('\'', 39), ('\\', 92), ('N', 0x85), ('_', 0xA0),
    ('L', 0x2028), ('P', 0x2029)]

/-- The escapes of double-quoted scalars that are followed by digits, and how many of them. -/
def numericEscapes : List (Char × Nat) :=
  [('x', 2), ('u', 4), ('U', 8)]

/-- Reads the character that so many hexadecimal digits stand for. -/
private def readDigits (width : Nat) : Reader Nat := do
  need width
  let c ← get
  match (c.rest.take width).mapM hexDigit? with
  | none => refuse
  | some digits =>
    let point := digits.foldl (fun n d => 16 * n + d) 0
    unless digits.length == width && Utf8.isScalar point do refuse
    set (Cursor.skipMany width c)
    return point

/-- The character of an escape; the cursor stands at the backslash. -/
def readEscape : Reader Nat := do
  skip
  match (← get).peek with
  | none => refuse
  | some letter =>
    skip
    match escapes.find? fun (char, _) => char.toNat == letter with
    | some (_, point) => return point
    | none =>
      match numericEscapes.find? fun (char, _) => char.toNat == letter with
      | none => refuse
      | some (_, width) => readDigits width

/-- Reads the characters of a quoted scalar up to a blank, a line end or the closing quote, and
returns them last first behind what was read before. The second component tells whether an escaped
line end was read. -/
def readQuotedPart (single : Bool) : Nat → List Nat → Reader (List Nat × Bool)
  | 0, text => return (text, false)
  | n + 1, text => do
    let c ← get
    if c.endsAt 0 then return (text, false)
    else if single && c.isAt '\'' then
      unless c.skip.isAt '\'' do return (text, false)
      skip
      skip
      need 2
      readQuotedPart single n (39 :: text)
    else if !single && c.isAt '"' then return (text, false)
    else if !single && c.isAt '\\' then
      if c.skip.atBreak then
        need 3
        skip
        modify Cursor.skipBreak
        return (text, true)
      let point ← readEscape
      need 2
      readQuotedPart single n (point :: text)
    else
      skip
      need 2
      readQuotedPart single n (c.peek.toList ++ text)

/-- Reads a quoted scalar from behind its opening quote to behind its closing one. What was read
before is given last character first. -/
def readQuoted (single : Bool) : Nat → List Nat → Reader (List Nat)
  | 0, _ => refuse
  | n + 1, text => do
    need 4
    let c ← get
    if c.atDocumentMark || c.rest.isEmpty then refuse
    let (text, broken) ← readQuotedPart single c.total text
    need 1
    if (← get).isAt (if single then '\'' else '"') then
      skip
      return text.reverse
    let g ← readGap 0 c.total { broken }
    readQuoted single n (g.text ++ text)

/-- What happens to the line ends after a block scalar. -/
inductive Chomping where
  /-- All are dropped. -/
  | strip
  /-- One is kept. -/
  | clip
  /-- All are kept. -/
  | keep
  deriving DecidableEq, Repr

/-- Reads the chomping indicator of a block scalar. -/
def readChomping : Reader Chomping := do
  let c ← get
  if c.isAt '+' then
    skip
    return .keep
  else if c.isAt '-' then
    skip
    return .strip
  else return .clip

/-- Reads the indentation indicator of a block scalar; zero stands for none. -/
def readIncrement : Reader Nat := do
  match (← get).peek with
  | some p =>
    if !isDigit p then return 0
    if p == 48 then refuse
    skip
    return p - 48
  | none => return 0

/-- Reads the indicators of a block scalar in either order. -/
def readBlockHeader : Reader (Chomping × Nat) := do
  need 1
  let c ← get
  if c.isAt '+' || c.isAt '-' then
    let chomping ← readChomping
    need 1
    return (chomping, ← readIncrement)
  else
    let increment ← readIncrement
    if increment == 0 then return (.clip, 0)
    need 1
    return (← readChomping, increment)

/-- Skips blanks up to an indentation, or all of them while it is not known. -/
private def skipIndentation (indent : Nat) : Nat → Reader Unit
  | 0 => return
  | n + 1 => do
    let c ← get
    if (indent == 0 || c.column < indent) && c.isAt ' ' then
      skip
      need 1
      skipIndentation indent n

/-- Reads indentation and empty lines before a line of a block scalar; an `indent` of zero is not
known yet. Returns the largest column reached and the line ends, last first. -/
def readIndentation (indent : Nat) : Nat → Nat → List Nat → Reader (Nat × List Nat)
  | 0, widest, breaks => return (widest, breaks)
  | n + 1, widest, breaks => do
    need 1
    skipIndentation indent (n + 1)
    let c ← get
    let widest := max widest c.column
    if (indent == 0 || c.column < indent) && c.isAt '\t' then refuse
    unless c.atBreak do return (widest, breaks)
    let text ← readBreak
    readIndentation indent n widest (text ++ breaks)

/-- What has been read of a block scalar. -/
structure BlockText where
  /-- The text up to the last line that is not empty, last character first. -/
  text : List Nat := []
  /-- The line end after it. -/
  last : List Nat := []
  /-- The empty lines after it, last first. -/
  breaks : List Nat := []
  deriving DecidableEq, Repr

/-- Reads the lines of a block scalar. -/
def readBlockLines (literal : Bool) (indent : Nat) : Nat → BlockText → Bool → Reader BlockText
  | 0, b, _ => return b
  | n + 1, b, wasBlank => do
    let c ← get
    if c.column != indent || c.rest.isEmpty then return b
    let blank := c.atBlank
    let folded := !literal && !wasBlank && !blank && b.last.head? == some 10
    let joint := if folded then (if b.breaks.isEmpty then [32] else []) else b.last
    let line ← takeWhile fun p => !isBreak p
    let last ← readBreak
    let (_, breaks) ← readIndentation indent (c.total + 1) 0 []
    readBlockLines literal indent n
      { text := line.reverse ++ b.breaks ++ joint ++ b.text, last, breaks } blank

/-- Reads a block scalar from behind its indicator on; `parent` is the column of the enclosing
block, if there is one. -/
def readBlock (literal : Bool) (parent : Option Nat) : Reader (List Nat) := do
  let (chomping, increment) ← readBlockHeader
  need 1
  skipWhile isBlank
  if (← get).isAt '#' then
    skipLineComment
    skipLine
  expect Cursor.atLineEnd
  if (← get).atBreak then skipBreak
  let given := if increment == 0 then 0 else parent.getD 0 + increment
  let fuel := (← get).total + 1
  let (widest, breaks) ← readIndentation given fuel 0 []
  let least := max 1 (parent.elim 0 (· + 1))
  let indent := if given == 0 then max widest least else given
  need 1
  let b ← readBlockLines literal indent fuel { breaks } false
  let tail :=
    match chomping with
    | .strip => []
    | .clip => b.last
    | .keep => b.breaks ++ b.last
  return (tail ++ b.text).reverse

end ReturnAudit.Yaml
