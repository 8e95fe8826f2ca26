import ReturnAudit.Text.Blank

/-!
# Texts with sections

A text file can hold several named texts. A line `-- name --` starts a section, which reaches to
the next such line; what stands before the first section is a comment.
-/

namespace ReturnAudit

/-- A comment and named texts in order. -/
structure SectionedText where
  /-- What stands before the first section. -/
  comment : Bytes
  /-- The sections with their names. -/
  sections : List (Bytes × Bytes)
  deriving DecidableEq, Repr

namespace SectionedText

/-- The lines of a text with their line breaks. -/
def lines : Bytes → List Bytes
  | [] => []
  | b :: rest =>
    if b = 10 then [b] :: lines rest
    else
      match lines rest with
      | [] => [[b]]
      | line :: others => (b :: line) :: others

/-- A line without its line break, which may be marked by a carriage return. -/
def bare (line : Bytes) : Bytes :=
  match line.reverse with
  | 10 :: 13 :: front => front.reverse
  | 10 :: front => front.reverse
  | _ => line

/-- The name in a line that starts a section. -/
def heading? (line : Bytes) : Option Bytes :=
  let line := bare line
  if (Bytes.ofString "-- ").isPrefixOf line && (Bytes.ofString " --").isSuffixOf line
      && 6 ≤ line.length then
    let name := Blank.trim ((line.drop 3).take (line.length - 6))
    if name.isEmpty then none else some name
  else none

/-- A line with a line break. -/
def terminated (line : Bytes) : Bytes :=
  if line.getLast? = some 10 then line else line ++ "\n"

/-- Reads lines: what stands before the first section, and the sections. -/
def ofLines : List Bytes → SectionedText
  | [] => ⟨[], []⟩
  | line :: rest =>
    let ⟨body, sections⟩ := ofLines rest
    match heading? line with
    | some name => ⟨[], (name, body) :: sections⟩
    | none => ⟨terminated line ++ body, sections⟩

/-- Reads a text with sections. -/
def parse (s : Bytes) : SectionedText :=
  ofLines (lines s)

end SectionedText

end ReturnAudit
