import ReturnAudit.Regex.Bracket
import ReturnAudit.Regex.Building

/-!
# Reading expressions

An expression is read from left to right, one part of its text at a time. Every reader of a part
adds what the part stands for to the expression that is being built and returns the text after it.
-/

namespace ReturnAudit.Regex

open Building

/-- Whether a byte is a decimal digit. -/
def isDigit (b : UInt8) : Bool :=
  48 ≤ b && b ≤ 57

/-- A count without superfluous leading zeros. -/
def readCount (s : Bytes) : Option (Nat × Bytes) :=
  let digits := s.takeWhile isDigit
  if digits.isEmpty || (1 < digits.length && digits.head? = some 48) then none
  else some (digits.foldl (fun n b => n * 10 + (b.toNat - 48)) 0, s.drop digits.length)

/-- The text after a closing brace. -/
def afterBrace? : Bytes → Option Bytes
  | 125 :: rest => some rest
  | _ => none

/-- The bounds in braces and the text after them; the text begins with the opening brace. -/
def readBounds? (s : Bytes) : Option (Nat × Option Nat × Bytes) := do
  let (least, rest) ← readCount (s.drop 1)
  match rest with
  | 44 :: rest =>
    match afterBrace? rest with
    | some rest => some (least, none, rest)
    | none => do
      let (most, rest) ← readCount rest
      (afterBrace? rest).map fun rest => (least, some most, rest)
  | rest => (afterBrace? rest).map fun rest => (least, some least, rest)

/-- Whether flag letters switch flags on or off. -/
inductive FlagSign where
  /-- They switch flags on. -/
  | on
  /-- They switch flags off; after the sign at least one letter has to come. -/
  | off (sawFlag : Bool)

/-- Reads flag letters up to the colon or parenthesis that ends them; `start` is the text from the
opening parenthesis on. -/
def readFlags (start : Bytes) : Nat → Flags → FlagSign → Bytes → Building Bytes
  | 0, _, _, s => throw ⟨.groupFlags, consumed start s⟩
  | _, _, _, [] => throw ⟨.groupFlags, start⟩
  | n + 1, flags, sign, s@(_ :: _) => do
    let (point, rest) ← readChar s
    let (value, saw) :=
      match sign with
      | .on => (true, FlagSign.on)
      | .off _ => (false, FlagSign.off true)
    let fault : Building Bytes := throw ⟨.groupFlags, consumed start rest⟩
    if point = 'i'.toNat then readFlags start n { flags with ignoreCase := value } saw rest
    else if point = 'm'.toNat then readFlags start n { flags with multiline := value } saw rest
    else if point = 's'.toNat then readFlags start n { flags with dotAll := value } saw rest
    else if point = 'U'.toNat then readFlags start n { flags with reluctant := value } saw rest
    else if point = '-'.toNat then
      match sign with
      | .on => readFlags start n flags (.off false) rest
      | .off _ => fault
    else if point = ':'.toNat || point = ')'.toNat then
      match sign with
      | .off false => fault
      | _ => do
        if point = ':'.toNat then openGroup false flags
        else modify fun p => { p with flags, lastRepeat := none }
        return rest
    else fault

/-- Whether a text can name a group. -/
def isGroupName (name : Bytes) : Bool :=
  !name.isEmpty && name.all fun b => b = 95 || isAlphanumeric b.toNat

/-- Opens a group with a name; `skip` is how many bytes come before the name in `s`. -/
def readGroupName (s : Bytes) (skip : Nat) : Building Bytes := do
  match Bytes.cut 62 s with
  | none =>
    checkEncoding s
    throw ⟨.groupName, s⟩
  | some (before, rest) =>
    let name := before.drop skip
    checkEncoding name
    unless isGroupName name do throw ⟨.groupName, consumed s rest⟩
    openGroup true (← get).flags
    return rest

/-- Reads what a question mark after an opening parenthesis starts. -/
def readGroupStart (s : Bytes) : Building Bytes := do
  match s.drop 2 with
  | 80 :: 60 :: _ :: _ => readGroupName s 4
  | 60 :: _ :: _ => readGroupName s 3
  | rest => readFlags s (rest.length + 1) (← get).flags .on rest

/-- Adds all characters of a text. A repetition that follows repeats the last one. -/
def pushLiterals : Nat → Bytes → Building Unit
  | _, [] => modify fun p => { p with lastRepeat := none }
  | 0, _ => return ()
  | n + 1, s@(_ :: _) => do
    let (point, rest) ← readChar s
    pushLiteral point
    pushLiterals n rest

/-- Reads quoted characters, up to the end of the quotation or of the text. -/
def readQuotation (s : Bytes) : Building Bytes := do
  let (quoted, rest) :=
    match Bytes.cutInfix "\\E" s with
    | some (quoted, rest) => (quoted, rest.drop 2)
    | none => (s, [])
  pushLiterals quoted.length quoted
  return rest

/-- Reads what a backslash starts: an anchor, a quotation, a class or a character. -/
def readBackslash (s : Bytes) : Building Bytes := do
  let letter := (s.drop 1).head?
  let rest := s.drop 2
  let anchor (condition : Assertion) : Building Bytes := do
    pushNew (.assert condition)
    return rest
  if letter = some (Bytes.ofChar 'A') then anchor .textStart
  else if letter = some (Bytes.ofChar 'b') then anchor .wordBoundary
  else if letter = some (Bytes.ofChar 'B') then anchor .noWordBoundary
  else if letter = some (Bytes.ofChar 'z') then anchor .textEnd
  else if letter = some (Bytes.ofChar 'C') then throw ⟨.escape, s.take 2⟩
  else if letter = some (Bytes.ofChar 'Q') then readQuotation rest
  else
    let ignoreCase := (← get).flags.ignoreCase
    if let some (set, rest) ← propertyEscape? ignoreCase s then
      pushNew (.chars set)
      return rest
    if let some (set, rest) := classEscape? ignoreCase s then
      pushNew (.chars set)
      return rest
    let (point, rest) ← readEscape s
    pushLiteral point
    return rest

/-- Reads a repetition with bounds in braces; a brace that starts no bounds is a character. -/
def readBraces (s : Bytes) : Building Bytes := do
  match readBounds? s with
  | none =>
    pushLiteral 123
    return s.drop 1
  | some (least, most, after) =>
    let isBad (most : Nat) := decide (maxCopies < most) || decide (most < least)
    if maxCopies < least || most.any isBad then
      throw ⟨.repeatCount, consumed s after⟩
    repeatLast (.count least most) s after

/-- Reads the next part of an expression. -/
def readPart (b : UInt8) (rest : Bytes) : Building Bytes := do
  let s := b :: rest
  let flags := (← get).flags
  if b = Bytes.ofChar '(' then
    match rest with
    | 63 :: _ => readGroupStart s
    | _ =>
      openGroup true flags
      return rest
  else if b = Bytes.ofChar '|' then
    bar
    return rest
  else if b = Bytes.ofChar ')' then
    closeGroup
    return rest
  else if b = Bytes.ofChar '^' then
    pushNew (.assert (if flags.multiline then .lineStart else .textStart))
    return rest
  else if b = Bytes.ofChar '$' then
    pushNew (.assert (if flags.multiline then .lineEnd else .textEnd))
    return rest
  else if b = Bytes.ofChar '.' then
    pushNew (.dot flags.dotAll)
    return rest
  else if b = Bytes.ofChar '[' then
    let (set, rest) ← readBracket flags.ignoreCase s
    pushNew (.chars set)
    return rest
  else if b = Bytes.ofChar '*' then repeatLast .star s rest
  else if b = Bytes.ofChar '+' then repeatLast .plus s rest
  else if b = Bytes.ofChar '?' then repeatLast .quest s rest
  else if b = 123 then readBraces s
  else if b = 92 then readBackslash s
  else
    let (point, rest) ← readChar s
    pushLiteral point
    return rest

/-- Reads parts up to the end of the text. -/
def readParts : Nat → Bytes → Building Unit
  | _, [] => return ()
  | 0, _ => return ()
  | n + 1, b :: rest => do
    let rest ← readPart b rest
    readParts n rest

/-- Reads an expression. -/
def Expr.parse (s : Bytes) : Except Error Expr := do
  let (e, p) ← (do readParts s.length s; current : Building Expr).run { whole := s }
  unless p.groups.isEmpty do throw ⟨.openParenthesis, s⟩
  return e

end ReturnAudit.Regex
