import ReturnAudit.Regex.Choice
import ReturnAudit.Text.Utf8

/-!
# Searching with an expression

A search reads the text once, from left to right. In the expression every character carries a mark
that says whether some match has just read it. Reading the next character moves all marks at once,
so no input makes the search slow: a step costs no more than the size of the expression, in which
counted repetitions are written out.
-/

namespace ReturnAudit.Regex

/-- A position of a text: the character before it and the one after it. -/
abbrev Gap := Option Nat × Option Nat

/-- Whether a neighbour is an ASCII letter, a digit or the underscore. -/
def isWordChar (neighbour : Option Nat) : Bool :=
  neighbour.any CharSet.wordChars.has

/-- Whether the condition holds between two neighbours. -/
def Assertion.holds : Assertion → Gap → Bool
  | .textStart, (before, _) => before.isNone
  | .textEnd, (_, after) => after.isNone
  | .lineStart, (before, _) => before.all (· == 10)
  | .lineEnd, (_, after) => after.all (· == 10)
  | .wordBoundary, (before, after) => isWordChar before != isWordChar after
  | .noWordBoundary, (before, after) => isWordChar before == isWordChar after

/-- An expression in the course of a search. -/
inductive Marked where
  /-- One character of a set; the mark says whether it has just been read. -/
  | char (read : Bool) (set : CharSet)
  /-- The empty text, where a condition holds. -/
  | assert (condition : Assertion)
  /-- Several expressions one after another. -/
  | sequence (items : List Marked)
  /-- One of several expressions. -/
  | choice (branches : List Marked)
  /-- An expression zero or more times, or one or more. -/
  | many (atLeastOnce : Bool) (body : Marked)
  deriving Repr

namespace Marked

mutual

/-- Whether a match may end at a position. It has just read its last character, or it is empty and
may start at the position, which is the case if `enter`. -/
def leaves (gap : Gap) (enter : Bool) : Marked → Bool
  | char read _ => read
  | assert condition => enter && condition.holds gap
  | sequence items => leavesAll gap enter items
  | choice branches => leavesAny gap enter branches
  | many atLeastOnce body => (enter && !atLeastOnce) || leaves gap enter body

/-- Whether a match of all expressions, one after another, may end at a position. -/
def leavesAll (gap : Gap) (enter : Bool) : List Marked → Bool
  | [] => enter
  | e :: rest => leavesAll gap (leaves gap enter e) rest

/-- Whether a match of one of the expressions may end at a position. -/
def leavesAny (gap : Gap) (enter : Bool) : List Marked → Bool
  | [] => false
  | e :: rest => leaves gap enter e || leavesAny gap enter rest

end

mutual

/-- Moves the marks over the character after a position, at which a match may start if `enter`. -/
def read (gap : Gap) (point : Nat) (enter : Bool) : Marked → Marked
  | char _ set => char (enter && set.has point) set
  | assert condition => assert condition
  | sequence items => sequence (readInTurn gap point enter items)
  | choice branches => choice (readEach gap point enter branches)
  | many atLeastOnce body => many atLeastOnce (read gap point (enter || leaves gap enter body) body)

/-- Moves the marks of expressions one after another. -/
def readInTurn (gap : Gap) (point : Nat) (enter : Bool) : List Marked → List Marked
  | [] => []
  | e :: rest => read gap point enter e :: readInTurn gap point (leaves gap enter e) rest

/-- Moves the marks of alternatives. -/
def readEach (gap : Gap) (point : Nat) (enter : Bool) : List Marked → List Marked
  | [] => []
  | e :: rest => read gap point enter e :: readEach gap point enter rest

end

/-- Whether a match that starts anywhere ends in the rest of a text. -/
def isFoundIn (e : Marked) (before : Option Nat) : List Nat → Bool
  | [] => e.leaves (before, none) true
  | point :: rest =>
    e.leaves (before, some point) true
      || isFoundIn (e.read (before, some point) point true) (some point) rest

/-- An expression that may also be left out. -/
def optional (e : Marked) : Marked :=
  choice [e, sequence []]

end Marked

namespace Expr

mutual

/-- The expression before a search, without any marks. -/
def unmarked : Expr → Marked
  | empty => .sequence []
  | literal ignoreCase points =>
    .sequence (points.map fun point => .char false (literalSet ignoreCase point))
  | chars set => .char false set
  | dot newlines => .char false (if newlines then .all else .notNewline)
  | assert condition => .assert condition
  | sequence items => .sequence (unmarkedAll items)
  | choice branches => .choice (unmarkedAll branches)
  | many atLeastOnce body => .many atLeastOnce (unmarked body)
  | optional body => (unmarked body).optional
  | group body => unmarked body
  | counted _ least most body =>
    let copy := unmarked body
    let more :=
      match most with
      | none => [.many false copy]
      | some most => List.replicate (most - least) copy.optional
    .sequence (List.replicate least copy ++ more)

/-- Expressions without any marks. -/
def unmarkedAll : List Expr → List Marked
  | [] => []
  | e :: rest => unmarked e :: unmarkedAll rest

end

/-- Whether the expression matches some part of a text. -/
def isFoundIn (e : Expr) (text : Bytes) : Bool :=
  e.unmarked.isFoundIn none (Utf8.points text)

end Expr

end ReturnAudit.Regex
