import ReturnAudit.Text.Numeral

/-!
# Lists with commas

Reading the first line of a text as fields with commas between them. A field in quotes may hold
commas and line breaks, and a quote inside it is written twice. Empty lines before the first field
are skipped, and a line break may be marked by a carriage return.
-/

namespace ReturnAudit.CommaList

/-- A place in a text, both numbers from one. -/
structure Place where
  /-- The number of the line. -/
  line : Nat
  /-- The number of the byte in its line. -/
  column : Nat
  deriving DecidableEq, Repr

/-- Why a text is no list. -/
inductive Fault where
  /-- There is no line with a field. -/
  | nothing
  /-- A quote stands in a field that does not start with one. -/
  | bareQuote (start : Nat) (place : Place)
  /-- A field in quotes is not closed, or goes on after its end. -/
  | openQuote (start : Nat) (place : Place)
  deriving DecidableEq, Repr

/-- The text about a fault at a place of a record that starts on a line. -/
private def placed (start : Nat) (place : Place) (cause : Bytes) : Bytes :=
  let record : Bytes :=
    if start = place.line then [] else "record on line " ++ Numeral.ofNat start ++ "; "
  record ++ "parse error on line " ++ Numeral.ofNat place.line ++ ", column " ++
    Numeral.ofNat place.column ++ ": " ++ cause

/-- The wording of a fault. -/
def Fault.message : Fault → Bytes
  | nothing => "EOF"
  | bareQuote start place => placed start place "bare \" in non-quoted-field"
  | openQuote start place => placed start place "extraneous or missing \" in quoted-field"

/-- Drops the carriage returns before line breaks and before the end. -/
def withoutReturns : Bytes → Bytes
  | [] => []
  | [b] => if b = 13 then [] else [b]
  | b :: c :: rest =>
    if b = 13 && c = 10 then withoutReturns (c :: rest) else b :: withoutReturns (c :: rest)

/-- Where a reader stands in a field. -/
inductive Mode where
  /-- Before its first byte. -/
  | start
  /-- Inside a field without quotes. -/
  | plain
  /-- Inside a field in quotes. -/
  | quoted
  /-- After a quote inside a field in quotes. -/
  | afterQuote
  deriving DecidableEq, Repr

/-- The place after a byte; the end of the text counts to the last line. -/
private def Place.after (place : Place) (b : UInt8) (rest : Bytes) : Place :=
  if b = 10 && !rest.isEmpty then ⟨place.line + 1, 1⟩ else ⟨place.line, place.column + 1⟩

/-- Reads the fields of a line that starts at line `start` of the text; `field` holds the bytes of
the current field and `done` the fields before it, the latest first. -/
def fieldsFrom (start : Nat) (mode : Mode) (place : Place) (field : Bytes) (done : List Bytes) :
    Bytes → Except Fault (List Bytes)
  | [] =>
    if mode = .quoted then .error (.openQuote start place)
    else .ok (field.reverse :: done).reverse
  | b :: rest =>
    let next := place.after b rest
    if mode = .quoted then
      if b = 34 then fieldsFrom start .afterQuote next field done rest
      else fieldsFrom start .quoted next (b :: field) done rest
    else if b = 44 then fieldsFrom start .start next [] (field.reverse :: done) rest
    else if b = 10 then .ok (field.reverse :: done).reverse
    else
      match mode with
      | .start =>
        if b = 34 then fieldsFrom start .quoted next field done rest
        else fieldsFrom start .plain next (b :: field) done rest
      | .afterQuote =>
        if b = 34 then fieldsFrom start .quoted next (b :: field) done rest
        else .error (.openQuote start ⟨place.line, place.column - 1⟩)
      | _ =>
        if b = 34 then .error (.bareQuote start place)
        else fieldsFrom start .plain next (b :: field) done rest

/-- Reads the fields of the first line that is not empty. The empty text is the empty list. -/
def read (s : Bytes) : Except Fault (List Bytes) :=
  if s.isEmpty then .ok []
  else
    let text := withoutReturns s
    let line := (text.takeWhile (· = 10)).length + 1
    match text.dropWhile (· = 10) with
    | [] => .error .nothing
    | text => fieldsFrom line .start ⟨line, 1⟩ [] [] text

end ReturnAudit.CommaList
