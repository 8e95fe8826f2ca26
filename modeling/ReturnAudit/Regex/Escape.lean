import ReturnAudit.Regex.CharSet
import ReturnAudit.Regex.Fault
import ReturnAudit.Text.Category
import ReturnAudit.Text.Script
import ReturnAudit.Text.Utf8

/-!
# Characters and escapes of expressions

Readers of the smallest parts of an expression: a character, an escaped character, and the escapes
that stand for a class. Every reader returns what is left of the text.
-/

namespace ReturnAudit.Regex

/-- The first character of a text. -/
def readChar : Bytes → Except Error (Nat × Bytes)
  | [] => .ok (Utf8.replacement, [])
  | b :: rest =>
    let d := Utf8.decodeHead b rest
    if d.valid then .ok (d.point, rest.drop (d.width - 1)) else .error ⟨.encoding, b :: rest⟩

/-- The text from the first malformed byte on. -/
private def faultyTail : Nat → Bytes → Option Bytes
  | _, [] => none
  | 0, _ => none
  | n + 1, b :: rest =>
    let d := Utf8.decodeHead b rest
    if d.valid then faultyTail n (rest.drop (d.width - 1)) else some (b :: rest)

/-- Refuses a text that is not well formed, with the text from the first malformed byte on. -/
def checkEncoding (s : Bytes) : Except Error Unit :=
  match faultyTail s.length s with
  | none => .ok ()
  | some rest => .error ⟨.encoding, rest⟩

/-- Whether a code point is an ASCII letter or digit. -/
def isAlphanumeric (point : Nat) : Bool :=
  CodePoints.has [(48, 57), (65, 90), (97, 122)] point

/-- The value of a hexadecimal digit. -/
def hexDigit? (point : Nat) : Option Nat :=
  if 48 ≤ point && point ≤ 57 then some (point - 48)
  else if 97 ≤ point && point ≤ 102 then some (point - 87)
  else if 65 ≤ point && point ≤ 70 then some (point - 55)
  else none

/-- The value of an octal digit. -/
def octalDigit? (b : UInt8) : Option Nat :=
  if 48 ≤ b && b ≤ 55 then some (b.toNat - 48) else none

/-- Reads at most `n` octal digits behind a value. -/
def readOctal : Nat → Nat → Bytes → Nat × Bytes
  | n + 1, value, b :: rest =>
    match octalDigit? b with
    | some digit => readOctal n (value * 8 + digit) rest
    | none => (value, b :: rest)
  | _, value, rest => (value, rest)

/-- How reading an escape can end without a character. -/
inductive Stop where
  /-- The text is malformed. -/
  | faulty (error : Error)
  /-- The characters before `rest` are no escape. -/
  | noEscape (rest : Bytes)

/-- The next character of an escape. -/
def readPoint (s : Bytes) : Except Stop (Nat × Bytes) :=
  (readChar s).mapError Stop.faulty

/-- Reads hexadecimal digits up to a closing brace; `value` is what the digits before come to, if
there are any. The number may not exceed the last code point. -/
def readBraced : Nat → Option Nat → Bytes → Except Stop (Nat × Bytes)
  | _, _, [] => .error (.noEscape [])
  | 0, _, rest => .error (.noEscape rest)
  | n + 1, value, s@(_ :: _) => do
    let (point, rest) ← readPoint s
    if point = 125 then
      match value with
      | some value => .ok (value, rest)
      | none => .error (.noEscape rest)
    else
      match hexDigit? point with
      | none => .error (.noEscape rest)
      | some digit =>
        let value := value.getD 0 * 16 + digit
        if 0x10FFFF < value then .error (.noEscape rest) else readBraced n (some value) rest

/-- Reads a character that is given by two hexadecimal digits, or by any number of them in
braces. -/
def readHex : Bytes → Except Stop (Nat × Bytes)
  | [] => .error (.noEscape [])
  | s@(_ :: _) => do
    let (first, rest) ← readPoint s
    if first = 123 then readBraced rest.length none rest
    else
      let (second, rest) ← readPoint rest
      match hexDigit? first, hexDigit? second with
      | some high, some low => .ok (high * 16 + low, rest)
      | _, _ => .error (.noEscape rest)

/-- The control character that a letter stands for. -/
def escapedControl? (point : Nat) : Option Nat :=
  [(97, 7), (102, 12), (110, 10), (114, 13), (116, 9), (118, 11)].lookup point

/-- Reads the character that an escape stands for, from behind the backslash. A digit from one to
seven only starts an octal number when another octal digit follows. -/
def readEscaped (s : Bytes) : Except Stop (Nat × Bytes) := do
  let (point, rest) ← readPoint s
  if point = 48 || (49 ≤ point && point ≤ 55 && rest.head?.any fun b => (octalDigit? b).isSome) then
    .ok (readOctal 2 (point - 48) rest)
  else if point = 120 then readHex rest
  else
    match escapedControl? point with
    | some control => .ok (control, rest)
    | none =>
      if point < 128 && !isAlphanumeric point then .ok (point, rest) else .error (.noEscape rest)

/-- The character that an escape stands for; the text begins with the backslash. -/
def readEscape (s : Bytes) : Except Error (Nat × Bytes) :=
  match s.drop 1 with
  | [] => .error ⟨.trailingBackslash, []⟩
  | rest =>
    match readEscaped rest with
    | .ok result => .ok result
    | .error (.faulty error) => .error error
    | .error (.noEscape rest) => .error ⟨.escape, consumed s rest⟩

/-- The set of a backslash followed by a class letter, negated for a capital one. -/
def classEscape? (ignoreCase : Bool) : Bytes → Option (CharSet × Bytes)
  | 92 :: letter :: rest =>
    let set (points : CodePoints) (negated : Bool) :=
      some ((CharSet.ofRanges points |>.foldedIf ignoreCase).signed negated, rest)
    if letter = Bytes.ofChar 'd' then set CharSet.digits false
    else if letter = Bytes.ofChar 'D' then set CharSet.digits true
    else if letter = Bytes.ofChar 's' then set CharSet.blanks false
    else if letter = Bytes.ofChar 'S' then set CharSet.blanks true
    else if letter = Bytes.ofChar 'w' then set CharSet.wordChars false
    else if letter = Bytes.ofChar 'W' then set CharSet.wordChars true
    else none
  | _ => none

/-- The code points of a general category or a script. Besides these, `Any` names all code points,
`Assigned` those that have a category and `ASCII` the first 128. -/
def property? (name : Bytes) : Option CharSet :=
  let name := CodePoints.canonicalName (String.ofList (name.map fun b => Char.ofNat b.toNat))
  if name = "Any" then some CharSet.all
  else if name = "Assigned" then
    (Category.find? "Cn").map fun points => (CharSet.ofRanges points).compl
  else if name = "Ascii" then some (CharSet.ofRanges [(0, 127)])
  else ((Category.find? name).or (Script.find? name)).map CharSet.ofRanges

/-- The set of a property with a name, negated once more if the name starts with a circumflex;
`excerpt` is shown when there is none, and `rest` is what follows. -/
def namedProperty (ignoreCase negated : Bool) (excerpt name rest : Bytes) :
    Except Error (CharSet × Bytes) :=
  let (negated, name) :=
    match name with
    | 94 :: name => (!negated, name)
    | name => (negated, name)
  match property? name with
  | none => .error ⟨.charRange, excerpt⟩
  | some set => .ok ((set.foldedIf ignoreCase).signed negated, rest)

/-- The set of a property that is named by one character or in braces; `rest` is what follows the
backslash and the letter that begin the text `s`. -/
def readProperty (ignoreCase negated : Bool) (s rest : Bytes) : Except Error (CharSet × Bytes) := do
  let (point, after) ← readChar rest
  if point = 123 then
    match Bytes.cut 125 s with
    | none => do
      checkEncoding s
      .error ⟨.charRange, s⟩
    | some (before, after) => do
      let name := before.drop 3
      checkEncoding name
      namedProperty ignoreCase negated (consumed s after) name after
  else namedProperty ignoreCase negated (consumed s after) (consumed rest after) after

/-- The set of an escape that names a property, such as `\pL` or `\p{Greek}`; `none` for a text that
starts otherwise. -/
def propertyEscape? (ignoreCase : Bool) (s : Bytes) : Except Error (Option (CharSet × Bytes)) :=
  match s with
  | 92 :: letter :: rest =>
    if letter = Bytes.ofChar 'p' || letter = Bytes.ofChar 'P' then
      some <$> readProperty ignoreCase (letter = Bytes.ofChar 'P') s rest
    else .ok none
  | _ => .ok none

end ReturnAudit.Regex
