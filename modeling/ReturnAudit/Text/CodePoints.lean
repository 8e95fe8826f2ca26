/-!
# Sets of code points

Tables of character properties are written as text: code points and ranges in hexadecimal, divided
by single blanks, ascending. This module reads such a text as a list of inclusive ranges, and it
says when two names of a property are the same.
-/

namespace ReturnAudit

/-- Inclusive ranges of code points. -/
abbrev CodePoints := List (Nat × Nat)

namespace CodePoints

/-- Whether a code point lies in one of the ranges. -/
def has (set : CodePoints) (point : Nat) : Bool :=
  set.any fun (lo, hi) => lo ≤ point && point ≤ hi

/-- The value of a hexadecimal digit in lower case. -/
private def hexDigit (c : Char) : Nat :=
  if c.isDigit then c.toNat - '0'.toNat else c.toNat - 'a'.toNat + 10

/-- The value of a hexadecimal numeral in lower case. -/
def hexValue (s : List Char) : Nat :=
  s.foldl (fun n c => 16 * n + hexDigit c) 0

/-- The range that a text describes: one code point, or two with a hyphen in between. -/
private def rangeOfText (s : List Char) : Nat × Nat :=
  match s.span (· != '-') with
  | (lo, []) => (hexValue lo, hexValue lo)
  | (lo, _ :: hi) => (hexValue lo, hexValue hi)

/-- The words of a text that is divided by single blanks. -/
def words (s : List Char) : List (List Char) :=
  s.foldr (fun c acc =>
    match c, acc with
    | ' ', acc => [] :: acc
    | c, [] => [[c]]
    | c, word :: rest => (c :: word) :: rest) [[]]

/-- A letter as a capital one. -/
private def upper (c : Char) : Char :=
  if 'a' ≤ c && c ≤ 'z' then Char.ofNat (c.toNat - 32) else c

/-- A letter as a small one. -/
private def lower (c : Char) : Char :=
  if 'A' ≤ c && c ≤ 'Z' then Char.ofNat (c.toNat + 32) else c

/-- The form in which names of properties are compared: without underscores, hyphens and blanks, the
first letter a capital one and the others small. -/
def canonicalName (name : String) : String :=
  match name.toList.filter fun c => c != '_' && c != '-' && c != ' ' with
  | [] => ""
  | first :: rest => String.ofList (upper first :: rest.map lower)

/-- The ranges that the lines of a table list. -/
def ofLines (lines : List String) : CodePoints :=
  lines.flatMap fun line => (words line.toList).map rangeOfText

end CodePoints

end ReturnAudit
