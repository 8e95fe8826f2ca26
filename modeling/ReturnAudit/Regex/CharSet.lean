import ReturnAudit.Text.CaseOrbit

/-!
# Character sets of expressions

A character set is kept in one normal form, ascending ranges that neither overlap nor touch, so that
two sets with the same members are equal.
-/

namespace ReturnAudit.Regex

/-- A set of code points, as ascending ranges with gaps between them. -/
structure CharSet where
  /-- The ranges. -/
  ranges : CodePoints
  deriving DecidableEq, Repr

namespace CharSet

/-- Whether a code point lies in the set. -/
def has (set : CharSet) (point : Nat) : Bool :=
  set.ranges.has point

/-- The largest code point. -/
def lastPoint : Nat := 0x10FFFF

/-- The ranges before a range that starts no earlier than they do, last first, and that range. -/
private def attach (joined : CodePoints) (range : Nat × Nat) : CodePoints :=
  match joined with
  | [] => [range]
  | (lo, hi) :: rest =>
    if range.1 ≤ hi + 1 then (lo, max hi range.2) :: rest else range :: joined

/-- The set of the code points of any ranges. -/
def ofRanges (ranges : CodePoints) : CharSet :=
  ⟨((ranges.mergeSort fun a b => a.1 ≤ b.1).foldl attach []).reverse⟩

/-- The gaps of ascending ranges, from a code point on. -/
private def gaps (start : Nat) : CodePoints → CodePoints
  | [] => if start ≤ lastPoint then [(start, lastPoint)] else []
  | (lo, hi) :: rest =>
    if start < lo then (start, lo - 1) :: gaps (hi + 1) rest else gaps (hi + 1) rest

/-- The code points outside a set. -/
def compl (set : CharSet) : CharSet :=
  ⟨gaps 0 set.ranges⟩

/-- The code points of one set or the other. -/
def union (left right : CharSet) : CharSet :=
  ofRanges (left.ranges ++ right.ranges)

/-- The code points that differ from a member by case at most. -/
def folded (set : CharSet) : CharSet :=
  let touched := CaseOrbit.orbits.filter fun orbit => orbit.any set.has
  ofRanges (set.ranges ++ touched.flatMap fun orbit => orbit.map fun point => (point, point))

/-- The set without members. -/
def empty : CharSet :=
  ⟨[]⟩

/-- The set of one code point. -/
def single (point : Nat) : CharSet :=
  ⟨[(point, point)]⟩

/-- The set of all code points. -/
def all : CharSet :=
  compl empty

/-- The set of all code points but the line feed. -/
def notNewline : CharSet :=
  compl (single 10)

/-- The set itself, or its complement. -/
def signed (negated : Bool) (set : CharSet) : CharSet :=
  if negated then compl set else set

/-- The set itself, or its closure under changes of case. -/
def foldedIf (ignoreCase : Bool) (set : CharSet) : CharSet :=
  if ignoreCase then folded set else set

/-- The ASCII digits. -/
def digits : CodePoints :=
  [(48, 57)]

/-- The blanks that an escape stands for; the vertical tab is not among them. -/
def blanks : CodePoints :=
  [(9, 10), (12, 13), (32, 32)]

/-- The ASCII letters, digits and the underscore. -/
def wordChars : CodePoints :=
  [(48, 57), (65, 90), (95, 95), (97, 122)]

/-- The named classes that may stand in brackets. -/
def namedClasses : List (String × CodePoints) :=
  [("alnum", [(48, 57), (65, 90), (97, 122)]),
    ("alpha", [(65, 90), (97, 122)]),
    ("ascii", [(0, 127)]),
    ("blank", [(9, 9), (32, 32)]),
    ("cntrl", [(0, 31), (127, 127)]),
    ("digit", digits),
    ("graph", [(33, 126)]),
    ("lower", [(97, 122)]),
    ("print", [(32, 126)]),
    ("punct", [(33, 47), (58, 64), (91, 96), (123, 126)]),
    ("space", [(9, 13), (32, 32)]),
    ("upper", [(65, 90)]),
    ("word", wordChars),
    ("xdigit", [(48, 57), (65, 70), (97, 102)])]

end CharSet

end ReturnAudit.Regex
