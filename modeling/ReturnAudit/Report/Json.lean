import ReturnAudit.Text.Numeral
import ReturnAudit.Text.Utf8

/-!
# Indented JSON

The values that a report is made of and their written form: two blanks a level, one member a line,
and nothing between the brackets of an empty array or object. Strings are safe to embed in HTML:
angle brackets, ampersands and the two separators of lines and paragraphs are written as escapes.
-/

namespace ReturnAudit

/-- A JSON value without fractions. -/
inductive Json where
  /-- A string; bytes that are not well formed are written as the replacement character. -/
  | text (s : Bytes)
  /-- An integer. -/
  | int (n : Int)
  /-- A truth value. -/
  | bool (b : Bool)
  /-- An array. -/
  | array (items : List Json)
  /-- An object with its members in order. -/
  | object (members : List (Bytes × Json))

namespace Json

/-- The control characters that have an escape of their own, and its letter. -/
def shortEscapes : List (Nat × Char) :=
  [(34, '"'), (92, '\\'), (8, 'b'), (12, 'f'), (10, 'n'), (13, 'r'), (9, 't')]

/-- The characters from the space on that are written by number. -/
def numbered : List Nat := [0x3c, 0x3e, 0x26, 0x2028, 0x2029]

/-- How a string holds a character, given its bytes. -/
def escape (d : Utf8.Decoded) (raw : Bytes) : Bytes :=
  if !d.valid then Utf8.encodePoint Utf8.replacement
  else
    match shortEscapes.lookup d.point with
    | some letter => [92, Bytes.ofChar letter]
    | none =>
      if d.point < 32 || numbered.contains d.point then "\\u" ++ Numeral.hexPadded 4 d.point
      else raw

/-- A string with its quotes. -/
def quoted (s : Bytes) : Bytes :=
  "\"" ++ (Utf8.chunks s).flatMap (fun (d, raw) => escape d raw) ++ "\""

/-- The start of a line at a level. -/
def newline (level : Nat) : Bytes :=
  10 :: List.replicate (2 * level) 32

/-- Items between brackets, one a line. -/
def bracketed (opening closing : UInt8) (level : Nat) (items : List Bytes) : Bytes :=
  if items.isEmpty then [opening, closing]
  else
    let lines := items.map (newline (level + 1) ++ ·)
    opening :: Bytes.join "," lines ++ newline level ++ [closing]

mutual

/-- The written form of a value at a level. -/
def renderAt (level : Nat) : Json → Bytes
  | text s => quoted s
  | int n => Numeral.ofInt n
  | bool true => "true"
  | bool false => "false"
  | array items => bracketed 91 93 level (renderItems (level + 1) items)
  | object members => bracketed 123 125 level (renderMembers (level + 1) members)

/-- The written forms of the items of an array. -/
def renderItems (level : Nat) : List Json → List Bytes
  | [] => []
  | item :: rest => renderAt level item :: renderItems level rest

/-- The written forms of the members of an object. -/
def renderMembers (level : Nat) : List (Bytes × Json) → List Bytes
  | [] => []
  | (name, value) :: rest =>
    (quoted name ++ ": " ++ renderAt level value) :: renderMembers level rest

end

/-- The written form of a value. -/
def render (j : Json) : Bytes :=
  j.renderAt 0

end Json

end ReturnAudit
