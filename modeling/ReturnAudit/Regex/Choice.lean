import ReturnAudit.Regex.Expr

/-!
# Common starts of alternatives

Alternatives that start with the same characters, or with the same class of characters, share that
start in the tree of a choice, and alternatives that are single characters are one class. This
module finds what alternatives have in common and takes it away from them.
-/

namespace ReturnAudit.Regex.Expr

/-- Whether the expression matches exactly one character of some set. -/
def isOneChar : Expr → Bool
  | literal _ [_] | chars _ | dot _ => true
  | _ => false

/-- The characters that a literal character stands for. -/
def literalSet (ignoreCase : Bool) (point : Nat) : CharSet :=
  if ignoreCase then .ofRanges ((CaseOrbit.of point).map fun other => (other, other))
  else .single point

/-- The set of an expression that matches exactly one character. -/
def oneCharSet : Expr → CharSet
  | literal ignoreCase [point] => literalSet ignoreCase point
  | chars set => set
  | dot newlines => if newlines then .all else .notNewline
  | _ => .empty

/-- A class of all characters, or of all but the line feed, as a dot. -/
def asDot : Expr → Expr
  | chars set => if set = .all then dot true else if set = .notNewline then dot false else chars set
  | e => e

/-- A class of one character, or of the two cases of one letter, as a literal. -/
def asLiteral : Expr → Expr
  | chars set =>
    match set.ranges with
    | [(lo, hi)] =>
      if lo = hi then literal false [lo]
      else if hi = lo + 1 && isCasePair lo hi then literal true [lo]
      else chars set
    | [(lo, lo'), (hi, hi')] =>
      if lo = lo' && hi = hi' && isCasePair lo hi then literal true [lo] else chars set
    | _ => chars set
  | e => e
where
  /-- Whether two characters are all the cases of one letter. -/
  isCasePair (lo hi : Nat) : Bool :=
    CaseOrbit.of lo = [lo, hi]

/-- Whether the expression is a dot. -/
private def isDot : Expr → Bool
  | dot _ => true
  | _ => false

/-- Whether both are literals with the same characters and the same mark for their case. -/
private def isSameLiteral : Expr → Expr → Bool
  | literal c s, literal d t => c = d && s = t
  | _, _ => false

/-- Several expressions that match one character each, as one. -/
def mergeChars (es : List Expr) : Expr :=
  let set := CharSet.ofRanges (es.flatMap fun e => e.oneCharSet.ranges)
  match es.head? with
  | none => empty
  | some first =>
    if es.all (isSameLiteral first) then first
    else if es.any isDot then dot (set.has 10)
    else asDot (chars set)

/-- The characters that an expression starts with. -/
def leadingText : Expr → Bool × List Nat
  | literal ignoreCase points | sequence (literal ignoreCase points :: _) => (ignoreCase, points)
  | _ => (false, [])

/-- A literal without its first `n` characters. -/
private def dropPoints (n : Nat) (ignoreCase : Bool) (points : List Nat) : Expr :=
  match points.drop n with
  | [] => empty
  | rest => literal ignoreCase rest

/-- An expression without its first `n` characters, and how many nodes that saves. -/
def dropText (n : Nat) : Expr → Expr × Nat
  | literal ignoreCase points => (dropPoints n ignoreCase points, 0)
  | sequence (literal ignoreCase points :: rest) =>
    match dropPoints n ignoreCase points, rest with
    | empty, [e] => (e, 2)
    | empty, rest => (sequence rest, 1)
    | first, rest => (sequence (first :: rest), 0)
  | e => (e, 0)

/-- The expression that an expression starts with. -/
def leadingItem : Expr → Option Expr
  | empty | sequence (empty :: _) => none
  | sequence (e :: _) => some e
  | e => some e

/-- Whether both match one character each and are written alike, the case of literals apart. -/
private def isSameChar : Expr → Expr → Bool
  | literal _ [p], literal _ [q] => p = q
  | chars s, chars t => s = t
  | dot a, dot b => a = b
  | _, _ => false

/-- Whether two starts of alternatives can be shared: both match the same characters, once or a
fixed number of times, with the same preference. The case of a literal is not compared, and the
first one's holds for both. -/
def isSharedStart : Expr → Expr → Bool
  | counted reluctant least most e, counted reluctant' least' most' e' =>
    most = some least && reluctant = reluctant' && least = least' && most = most' && isSameChar e e'
  | e, e' => isSameChar e e'

/-- An expression without what it starts with, and how many nodes that saves and adds. The start
itself is kept elsewhere if `kept`. -/
def dropItem (kept : Bool) (e : Expr) : Expr × Nat × Nat :=
  let saved := if kept then 0 else 1
  match e with
  | sequence [_, e] => (e, saved + 1, 0)
  | sequence (_ :: rest) => (sequence rest, saved, 0)
  | _ => (empty, saved, 1)

/-- Neighbouring alternatives with a common start. -/
structure Run (α : Type) where
  /-- What they have in common. -/
  start : α
  /-- The alternatives, last first. -/
  members : List Expr

/-- The longest common start of two texts. -/
def commonStart : List Nat → List Nat → List Nat
  | a :: s, b :: t => if a = b then a :: commonStart s t else []
  | _, _ => []

/-- Neighbours grouped by the characters they start with. -/
def textRuns (es : List Expr) : List (Run (Bool × List Nat)) :=
  (es.foldl (fun runs e =>
    let (ignoreCase, text) := e.leadingText
    match runs with
    | [] => [⟨(ignoreCase, text), [e]⟩]
    | run :: before =>
      let common := commonStart run.start.2 text
      if run.start.1 = ignoreCase && !common.isEmpty then
        ⟨(ignoreCase, common), e :: run.members⟩ :: before
      else ⟨(ignoreCase, text), [e]⟩ :: run :: before) []).reverse

/-- Neighbours grouped by the class they start with. -/
def itemRuns (es : List Expr) : List (Run (Option Expr)) :=
  (es.foldl (fun runs e =>
    match runs with
    | [] => [⟨e.leadingItem, [e]⟩]
    | run :: before =>
      match run.start, e.leadingItem with
      | some first, some next =>
        if isSharedStart first next then ⟨some first, e :: run.members⟩ :: before
        else ⟨some next, [e]⟩ :: run :: before
      | _, start => ⟨start, [e]⟩ :: run :: before) []).reverse

/-- Neighbours grouped by whether they match exactly one character each. -/
def charRuns (es : List Expr) : List (List Expr) :=
  es.foldr (fun e runs =>
    match runs with
    | (e' :: more) :: rest =>
      if e.isOneChar && e'.isOneChar then (e :: e' :: more) :: rest else [e] :: runs
    | runs => [e] :: runs) []

/-- A list without an empty expression before another. -/
def dropRepeatedEmpty (es : List Expr) : List Expr :=
  es.foldr (fun e kept =>
    match e, kept with
    | empty, empty :: _ => kept
    | e, kept => e :: kept) []

/-- Neighbouring literals of one kind as one literal. -/
def joinLiterals (es : List Expr) : List Expr :=
  es.foldr (fun e joined =>
    match e, joined with
    | literal c s, literal d t :: rest =>
      if c = d then literal c (s ++ t) :: rest else e :: joined
    | e, joined => e :: joined) []

end ReturnAudit.Regex.Expr
