import ReturnAudit.Regex.Choice
import ReturnAudit.Regex.Fault

/-!
# Building expressions

An expression is built from left to right in a stack of open groups. A group remembers the flags
that were in force where it was opened, the alternatives that are complete and the items of the
current alternative, so a repetition always finds its operand as the last item.

Every part is measured when it is added. The characters that all parts list and the heights are
compared with their limits throughout. Sizes are
compared only once they may matter: as long as the nodes held at one time, multiplied by all counts
of repetitions so far, stay below the limit, no size is computed.
-/

namespace ReturnAudit.Regex

/-- The flags that groups can switch. -/
structure Flags where
  /-- Letters match in either case. -/
  ignoreCase : Bool := false
  /-- The anchors also match at line ends. -/
  multiline : Bool := false
  /-- The dot also matches a line feed. -/
  dotAll : Bool := false
  /-- Repetitions prefer few copies, and those with a question mark many. -/
  reluctant : Bool := false
  deriving DecidableEq, Repr

/-- A group whose closing parenthesis has not been read. -/
structure OpenGroup where
  /-- Whether the parentheses capture. -/
  capturing : Bool
  /-- The flags in force before the group. -/
  outerFlags : Flags
  /-- The complete alternatives around the group, last first. -/
  outerBranches : List Expr
  /-- The items before the group, last first. -/
  outerItems : List Expr

/-- What an expression has cost so far. -/
structure Meter where
  /-- The characters that the parts have listed when they were added. -/
  points : Nat := 0
  /-- The nodes in use. -/
  live : Nat := 0
  /-- The most nodes that were in use at one time. -/
  peak : Nat := 0
  /-- The product of the counts of repetitions. -/
  copies : Nat := 1
  /-- Whether sizes are computed. -/
  watching : Bool := false
  deriving DecidableEq, Repr

/-- What has been read of an expression. -/
structure Progress where
  /-- The text of the whole expression. -/
  whole : Bytes
  /-- The flags in force. -/
  flags : Flags := {}
  /-- The open groups, innermost first. -/
  groups : List OpenGroup := []
  /-- The complete alternatives of the innermost group, last first. -/
  branches : List Expr := []
  /-- The items of the current alternative, last first. -/
  items : List Expr := []
  /-- The text from the preceding repetition on, when a repetition was the last thing read. -/
  lastRepeat : Option Bytes := none
  /-- What the expression has cost so far. -/
  meter : Meter := {}

/-- A step that extends an expression. -/
abbrev Building := StateT Progress (Except Error)

/-- The largest count of a repetition, and of nested repetitions together. -/
def maxCopies : Nat := 1000

/-- The largest height of an expression. -/
def maxHeight : Nat := 1000

/-- The most characters that the parts of an expression may list. -/
def maxPoints : Nat := 33554432

/-- The largest size of an expression. -/
def maxSize : Nat := 3355443

namespace Meter

/-- The cost after a part that lists characters. -/
def list (n : Nat) (m : Meter) : Meter :=
  { m with points := m.points + n }

/-- The cost after more nodes. -/
def add (n : Nat) (m : Meter) : Meter :=
  { m with live := m.live + n, peak := max m.peak (m.live + n) }

/-- The cost after nodes are no longer in use. -/
def free (n : Nat) (m : Meter) : Meter :=
  { m with live := m.live - n }

/-- The cost after an expression, whose count is multiplied into the copies. -/
def after (m : Meter) : Expr → Meter
  | .counted _ least most _ =>
    let count := max 1 (most.getD least)
    { m with copies := if maxSize / m.copies < count then maxSize else m.copies * count }
  | _ => m

end Meter

/-- All complete parts of an expression. -/
def Progress.parts (p : Progress) : List Expr :=
  p.items ++ p.branches ++ p.groups.flatMap fun g => g.outerItems ++ g.outerBranches

namespace Building

/-- Counts the characters that a part lists. -/
def listPoints (e : Expr) : Building Unit :=
  modify fun p => { p with meter := p.meter.list e.listedPoints }

/-- Counts new nodes. -/
def addNodes (n : Nat) : Building Unit :=
  modify fun p => { p with meter := p.meter.add n }

/-- Counts nodes that are no longer in use. -/
def freeNodes (n : Nat) : Building Unit :=
  modify fun p => { p with meter := p.meter.free n }

/-- Refuses an expression that lists too many characters, is too large or too high. -/
def check (e : Expr) : Building Unit := do
  let p ← get
  if maxPoints < p.meter.points then throw ⟨.size, p.whole⟩
  let meter := if p.meter.watching then p.meter else p.meter.after e
  let starts := !meter.watching && maxSize / meter.copies ≤ meter.peak
  set { p with meter := { meter with watching := meter.watching || starts } }
  let measured := if starts then e :: p.parts else if meter.watching then [e] else []
  if measured.any fun e => decide (maxSize < e.size) then throw ⟨.size, p.whole⟩
  if maxHeight ≤ meter.peak && maxHeight < e.height then throw ⟨.depth, p.whole⟩

/-- An expression in the form in which it stands alone in its place. -/
def settle (e : Expr) : Building Expr := do
  listPoints e
  let e := e.asLiteral
  check e
  return e

/-- Whether the last two items are literals of one kind. -/
def endsInLiterals : List Expr → Bool
  | .literal c _ :: .literal d _ :: _ => c = d
  | _ => false

/-- Counts the node that is saved when the last two items are one literal. -/
def joinLast : Building Unit := do
  if endsInLiterals (← get).items then freeNodes 1

/-- Adds an item to the current alternative. -/
def push (e : Expr) : Building Unit := do
  listPoints e
  let p ← get
  let add (e : Expr) : Building Unit :=
    modify fun p => { p with items := e :: p.items, lastRepeat := none }
  match e, e.asLiteral with
  | .chars _, .literal c points =>
    add (.literal c points)
    unless endsInLiterals p.items do check (.literal c points)
  | e, _ =>
    joinLast
    add e
    check e

/-- Adds an item with a node of its own. -/
def pushNew (e : Expr) : Building Unit := do
  addNodes 1
  push e

/-- Adds a character, under the flags in force. -/
def pushLiteral (point : Nat) : Building Unit := do
  if (← get).flags.ignoreCase then
    pushNew (.literal true [(CaseOrbit.of point).foldl min point])
  else pushNew (.literal false [point])

/-- Expressions one after another. -/
def sequenceOf : List Expr → Building Expr
  | [e] => return e
  | es => do
    addNodes 1
    let parts := es.map fun e =>
      match e with
      | .sequence items => (items, 1)
      | e => ([e], 0)
    freeNodes ((parts.map Prod.snd).foldr (· + ·) 0)
    return .sequence (parts.flatMap Prod.fst)

/-- Alternatives in which neighbours with the same first characters share them; `again` makes a
choice of what is left of them. -/
def shareTexts (again : List Expr → Building Expr) (es : List Expr) :
    Building (List Expr) :=
  (Expr.textRuns es).mapM fun run =>
    match run.members with
    | [e] => return e
    | members => do
      let (ignoreCase, text) := run.start
      addNodes 1
      let rests ← members.reverse.mapM fun e => do
        let (e, saved) := e.dropText text.length
        freeNodes saved
        check e
        return e
      let rest ← again rests
      addNodes 1
      return .sequence [.literal ignoreCase text, rest]

/-- Alternatives in which neighbours with the same first class share it. -/
def shareItems (again : List Expr → Building Expr) (es : List Expr) :
    Building (List Expr) :=
  (Expr.itemRuns es).mapM fun run =>
    match run.start, run.members with
    | some first, e' :: e :: more => do
      let rests ← ((e' :: e :: more).reverse.zipIdx).mapM fun (e, index) => do
        let (e, saved, added) := e.dropItem (index == 0)
        freeNodes saved
        addNodes added
        check e
        return e
      let rest ← again rests
      addNodes 1
      return .sequence [first, rest]
    | _, e :: _ => return e
    | _, [] => return .empty

/-- Alternatives in which neighbours that match one character each are one class. -/
def mergeNeighbours (es : List Expr) : Building (List Expr) :=
  (Expr.charRuns es).mapM fun run =>
    match run with
    | [e] => return e
    | run => do
      freeNodes (run.length - 1)
      return Expr.mergeChars run

/-- One of several alternatives; `fuel` bounds how often common starts are nested. -/
def choiceOf : Nat → List Expr → Building Expr
  | _, [e] => return e
  | 0, es => return .choice es
  | fuel + 1, es => do
    addNodes 1
    let parts := es.map fun e =>
      match e with
      | .choice branches => (branches, 1)
      | e => ([e], 0)
    freeNodes ((parts.map Prod.snd).foldr (· + ·) 0)
    let es ← shareTexts (fun rests => choiceOf fuel rests) (parts.flatMap Prod.fst)
    let es ← shareItems (fun rests => choiceOf fuel rests) es
    let es ← mergeNeighbours es
    match Expr.dropRepeatedEmpty es with
    | [e] =>
      freeNodes 1
      return e
    | es => return .choice es

/-- The alternative that items make up. -/
def branchOf (items : List Expr) : Building Expr :=
  match Expr.joinLiterals items.reverse with
  | [] => do
    addNodes 1
    settle .empty
  | es => do settle (← sequenceOf es)

/-- Adds a complete alternative. -/
def addBranch (e : Expr) : Building Unit := do
  match (← get).branches with
  | last :: others =>
    if last.isOneChar && e.isOneChar then
      freeNodes 1
      modify fun p => { p with branches := Expr.mergeChars [last, e] :: others }
    else modify fun p => { p with branches := e.asDot :: p.branches }
  | [] => modify fun p => { p with branches := [e.asDot] }

/-- Ends the current alternative. -/
def endBranch : Building Unit := do
  joinLast
  let p ← get
  set { p with items := [], lastRepeat := none }
  addBranch (← branchOf p.items)

/-- Ends the current alternative before another. -/
def bar : Building Unit := do
  let isFirst := (← get).branches.isEmpty
  endBranch
  if isFirst then
    addNodes 1
    check .empty

/-- The expression of the innermost group. A common start of alternatives is a step of all their
programs, so starts are nested no deeper than these have steps. -/
def current : Building Expr := do
  endBranch
  let p ← get
  set { p with branches := [] }
  settle (← choiceOf (Expr.sizeOfAll p.branches) p.branches.reverse)

/-- Opens a group inside which the given flags hold. -/
def openGroup (capturing : Bool) (inner : Flags) : Building Unit := do
  addNodes 1
  joinLast
  modify fun p =>
    { p with
      flags := inner, groups := ⟨capturing, p.flags, p.branches, p.items⟩ :: p.groups,
      branches := [], items := [], lastRepeat := none }
  check .empty

/-- Closes the innermost group. -/
def closeGroup : Building Unit := do
  let body ← current
  let p ← get
  match p.groups with
  | [] => throw ⟨.strayParenthesis, p.whole⟩
  | g :: groups =>
    set { p with flags := g.outerFlags, groups, branches := g.outerBranches, items := g.outerItems }
    push (if g.capturing then .group body else body)

end Building

/-- A repetition: how often its operand stands. -/
inductive Repetition where
  /-- Zero or more times. -/
  | star
  /-- One or more times. -/
  | plus
  /-- At most once. -/
  | quest
  /-- Between two bounds. -/
  | count (least : Nat) (most : Option Nat)
  deriving DecidableEq, Repr

/-- The repetition of an operand. -/
def Repetition.apply (reluctant : Bool) : Repetition → Expr → Expr
  | star, body => .many false body
  | plus, body => .many true body
  | quest, body => .optional body
  | count least most, body => .counted reluctant least most body

/-- Whether a text starts with a question mark, and what follows it. -/
def splitQuest : Bytes → Bool × Bytes
  | 63 :: rest => (true, rest)
  | rest => (false, rest)

/-- Repeats the last item. A question mark after a repetition belongs to it and turns round whether
it is reluctant; `before` is the text from the repetition on and `after` what follows it. -/
def Building.repeatLast (repetition : Repetition) (before after : Bytes) : Building Bytes := do
  let (quest, after) := splitQuest after
  let p ← get
  match p.lastRepeat, p.items with
  | some last, _ => throw ⟨.nestedRepetition, consumed last after⟩
  | none, [] => throw ⟨.noOperand, consumed before after⟩
  | none, operand :: items =>
    let repeated := repetition.apply (p.flags.reluctant != quest) operand
    Building.addNodes 1
    modify fun p => { p with items := repeated :: items, lastRepeat := some before }
    Building.check repeated
    let isCounted :=
      match repetition with
      | .count least most => decide (2 ≤ least) || most.any fun most => decide (2 ≤ most)
      | _ => false
    if isCounted && !repeated.copiesWithin maxCopies then
      throw ⟨.repeatCount, consumed before after⟩
    return after

end ReturnAudit.Regex
