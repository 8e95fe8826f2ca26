import ReturnAudit.Regex.CharSet

/-!
# Regular expressions

The tree of an expression, and its measures: the characters that it lists, the number of copies that
nested counted repetitions make, the height of the tree and the size of a program that would run it.
An expression beyond the limits of these measures is refused when it is built.
-/

namespace ReturnAudit.Regex

/-- A condition on the two characters around a position. -/
inductive Assertion where
  /-- The position is the start of the text. -/
  | textStart
  /-- The position is the end of the text. -/
  | textEnd
  /-- The position starts a line. -/
  | lineStart
  /-- The position ends a line. -/
  | lineEnd
  /-- Exactly one of the two neighbours is a word character. -/
  | wordBoundary
  /-- Both neighbours are word characters, or none of them is. -/
  | noWordBoundary
  deriving DecidableEq, Repr

/-- A regular expression. -/
inductive Expr where
  /-- The empty text. -/
  | empty
  /-- Characters one after another, in either case if so marked. -/
  | literal (ignoreCase : Bool) (points : List Nat)
  /-- One character of a set. -/
  | chars (set : CharSet)
  /-- Any character, line feeds included or not. -/
  | dot (newlines : Bool)
  /-- The empty text, where a condition holds. -/
  | assert (condition : Assertion)
  /-- Several expressions one after another. -/
  | sequence (items : List Expr)
  /-- One of several expressions. -/
  | choice (branches : List Expr)
  /-- An expression as often as it may stand: zero or more times, or one or more. -/
  | many (atLeastOnce : Bool) (body : Expr)
  /-- An expression or the empty text. -/
  | optional (body : Expr)
  /-- An expression between `least` and `most` times; without `most` there is no upper bound. A
  reluctant one prefers few copies, which makes no difference to what it matches. -/
  | counted (reluctant : Bool) (least : Nat) (most : Option Nat) (body : Expr)
  /-- An expression in capturing parentheses. -/
  | group (body : Expr)
  deriving Repr

namespace Expr

/-- How many characters the expression lists itself, besides those of its parts. A class lists the
two ends of each range. -/
def listedPoints : Expr → Nat
  | literal _ points => points.length
  | chars set => 2 * set.ranges.length
  | _ => 0

mutual

/-- Whether nested counted repetitions multiply to at most `limit` copies. -/
def copiesWithin (limit : Nat) : Expr → Bool
  | empty | literal _ _ | chars _ | dot _ | assert _ => true
  | sequence items | choice items => allCopiesWithin limit items
  | many _ body | optional body | group body => copiesWithin limit body
  | counted _ least most body =>
    let copies := most.getD least
    if most = some 0 then true
    else if limit < copies then false
    else copiesWithin (if copies = 0 then limit else limit / copies) body

/-- Whether that holds of every expression of a list. -/
def allCopiesWithin (limit : Nat) : List Expr → Bool
  | [] => true
  | e :: rest => copiesWithin limit e && allCopiesWithin limit rest

end

mutual

/-- The height of the tree. -/
def height : Expr → Nat
  | empty | literal _ _ | chars _ | dot _ | assert _ => 1
  | sequence items | choice items => 1 + heightOfAll items
  | many _ body | optional body | counted _ _ _ body | group body => 1 + height body

/-- The height of the tallest tree of a list. -/
def heightOfAll : List Expr → Nat
  | [] => 0
  | e :: rest => max (height e) (heightOfAll rest)

end

mutual

/-- How many steps a program for the expression has at most. -/
def size : Expr → Nat
  | empty | chars _ | dot _ | assert _ => 1
  | literal _ points => max 1 points.length
  | sequence items => max 1 (sizeOfAll items)
  | choice branches => max 1 (sizeOfAll branches + (branches.length - 1))
  | many atLeastOnce body => size body + if atLeastOnce then 1 else 2
  | optional body => size body + 1
  | group body => size body + 2
  | counted _ least none body => if least = 0 then size body + 2 else 1 + least * size body
  | counted _ least (some most) body => max 1 (most * size body + (most - least))

/-- The sizes of a list of expressions together. -/
def sizeOfAll : List Expr → Nat
  | [] => 0
  | e :: rest => size e + sizeOfAll rest

end

end Expr

end ReturnAudit.Regex
