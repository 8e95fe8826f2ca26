import ReturnAudit.Yaml.Cursor
import ReturnAudit.Yaml.Token

/-!
# Directives, tags and anchors of YAML text

Readers of the tokens that describe a document or a node: version and tag directives, tags in their
three forms, and the names of anchors.
-/

namespace ReturnAudit.Yaml

open Reader

/-- Reads at most so many digits behind a value. -/
private def readNumberFrom : Nat → Nat → Reader Nat
  | digits, value => do
    match (← get).peek with
    | some p =>
      if !isDigit p then return value
      match digits with
      | 0 => refuse
      | digits + 1 =>
        skip
        need 1
        readNumberFrom digits (10 * value + (p - 48))
    | none => return value

/-- A version number of at most two digits. -/
def readVersionNumber : Reader Nat := do
  need 1
  expect fun c => c.peek.any isDigit
  readNumberFrom 2 0

/-- Reads what looks like a tag handle; without a second exclamation mark it is the start of a
suffix. -/
def readTagHandle (directive : Bool) : Reader (List Nat) := do
  need 1
  expect (·.isAt '!')
  skip
  need 1
  let name ← takeWhile isNameChar
  if (← get).isAt '!' then
    skip
    return 33 :: name ++ [33]
  if directive && !name.isEmpty then refuse
  return 33 :: name

/-- Whether a character may occur in the suffix of a tag. -/
def isTagChar (p : Nat) : Bool :=
  isNameChar p || (";/?:@&=+$,.!~*'()[]%".toList.map Char.toNat).contains p

/-- How many bytes the sequence has that a byte starts. -/
private def sequenceWidth (byte : Nat) : Nat :=
  if byte < 0x80 then 1
  else if 0xC0 ≤ byte && byte < 0xE0 then 2
  else if 0xE0 ≤ byte && byte < 0xF0 then 3
  else if 0xF0 ≤ byte && byte < 0xF8 then 4
  else 0

/-- Reads a byte that is written as a percent sign and two hexadecimal digits. -/
private def readOctet : Reader Nat := do
  need 3
  let c ← get
  match c.rest with
  | 37 :: a :: b :: _ =>
    match hexDigit? a, hexDigit? b with
    | some high, some low =>
      set (Cursor.skipMany 3 c)
      return 16 * high + low
    | _, _ => refuse
  | _ => refuse

/-- Reads bytes that continue a sequence. -/
private def readContinuation : Nat → Reader Bytes
  | 0 => return []
  | n + 1 => do
    let octet ← readOctet
    if octet < 0x80 || 0xC0 ≤ octet then refuse
    return octet.toUInt8 :: (← readContinuation n)

/-- Reads the bytes of an escaped character. -/
def readTagEscape : Reader Bytes := do
  let octet ← readOctet
  let width := sequenceWidth octet
  if width == 0 then refuse
  return octet.toUInt8 :: (← readContinuation (width - 1))

/-- Reads characters of a suffix; `suffix` is what has been read before. -/
private def readTagChars : Nat → Bytes → Reader Bytes
  | 0, suffix => return suffix
  | n + 1, suffix => do
    match (← get).peek with
    | none => return suffix
    | some p =>
      if !isTagChar p then return suffix
      let piece ← if p == 37 then readTagEscape else (do skip; return Utf8.encodePoint p)
      need 1
      readTagChars n (suffix ++ piece)

/-- Reads the characters of a suffix. -/
def readTagSuffix : Reader Bytes := do
  need 1
  readTagChars (← get).total []

/-- Reads a suffix that may not be empty. -/
def readTagUri : Reader Bytes := do
  let suffix ← readTagSuffix
  if suffix.isEmpty then refuse
  return suffix

/-- Reads a tag; the cursor stands at the exclamation mark. -/
def readTag : Reader TokenKind := do
  need 2
  let kind ←
    if (← get).skip.isAt '<' then do
      skip
      skip
      let suffix ← readTagUri
      expect (·.isAt '>')
      skip
      pure (TokenKind.tag [] suffix)
    else do
      let handle ← readTagHandle false
      if 1 < handle.length && handle.getLast? == some 33 then
        pure (TokenKind.tag (Utf8.encode handle) (← readTagUri))
      else
        let suffix := Utf8.encode (handle.drop 1) ++ (← readTagSuffix)
        pure (if suffix.isEmpty then TokenKind.tag [] "!" else TokenKind.tag "!" suffix)
  need 1
  expect (·.endsAt 0)
  return kind

/-- Reads the name of an anchor or alias from behind its indicator on. -/
def readAnchorName : Reader Bytes := do
  need 1
  let name ← takeWhile isNameChar
  let mayFollow (p : Nat) : Bool := ("?:,]\x7d%@`".toList.map Char.toNat).contains p
  expect fun c => !name.isEmpty && (c.endsAt 0 || c.peek.any mayFollow)
  return Utf8.encode name

/-- Reads a version directive from behind its name on. -/
def readVersionDirective : Reader TokenKind := do
  need 1
  skipWhile isBlank
  let major ← readVersionNumber
  expect (·.isAt '.')
  skip
  let minor ← readVersionNumber
  return .versionDirective major minor

/-- Reads a tag directive from behind its name on. -/
def readTagDirective : Reader TokenKind := do
  need 1
  skipWhile isBlank
  let handle ← readTagHandle true
  need 1
  expect Cursor.atBlank
  skipWhile isBlank
  let expansion ← readTagUri
  need 1
  expect (·.endsAt 0)
  return .tagDirective (Utf8.encode handle) expansion

/-- Reads a directive with the rest of its line; the cursor stands at the percent sign. -/
def readDirective : Reader TokenKind := do
  skip
  need 1
  let name ← takeWhile isNameChar
  expect fun c => !name.isEmpty && c.endsAt 0
  let kind ←
    if name = "YAML".toList.map Char.toNat then readVersionDirective
    else if name = "TAG".toList.map Char.toNat then readTagDirective
    else refuse
  need 1
  skipWhile isBlank
  if (← get).isAt '#' then skipLine
  expect Cursor.atLineEnd
  if (← get).atBreak then skipBreak
  return kind

end ReturnAudit.Yaml
