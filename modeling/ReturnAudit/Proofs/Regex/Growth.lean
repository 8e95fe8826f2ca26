import ReturnAudit.Regex.Parse
import ReturnAudit.Proofs.Steps

/-!
# What building steps do

Apart from what an expression has cost so far, every building step does something simple to the
items, the alternatives and the open groups, whenever it succeeds. Measuring decides whether it
succeeds and nothing else: what is built does not depend on it.
-/

namespace ReturnAudit.Regex

variable {α β : Type}

/-- Whether two stages of an expression differ in their cost at most. -/
def Progress.SameTree (p q : Progress) : Prop :=
  ∃ m, q = { p with meter := m }

/-- A stage has the same tree as itself. -/
theorem Progress.SameTree.refl (p : Progress) : p.SameTree p :=
  ⟨p.meter, rfl⟩

/-- Two stages with the tree of a third have the same tree. -/
theorem Progress.SameTree.trans {p q r : Progress} (h : p.SameTree q) (h' : q.SameTree r) :
    p.SameTree r := by
  obtain ⟨m, rfl⟩ := h
  obtain ⟨m', rfl⟩ := h'
  exact ⟨m', rfl⟩

namespace Building

/-- Whether a step that succeeds gives a certain value and only changes the cost. -/
def Gives (x : Building α) (a : α) : Prop :=
  ∀ p b q, x p = .ok (b, q) → b = a ∧ p.SameTree q

namespace Gives

/-- A step that does nothing gives its value. -/
theorem pure (a : α) : Gives (Pure.pure a) a := by
  intro p b q h
  obtain ⟨rfl, rfl⟩ := of_run_pure h
  exact ⟨rfl, .refl _⟩

/-- Two steps one after the other give what the second one gives. -/
theorem bind {x : Building α} {f : α → Building β} {a : α} {b : β} (h : Gives x a)
    (h' : Gives (f a) b) : Gives (x >>= f) b := by
  intro p c r hrun
  obtain ⟨d, q, hd, hc⟩ := of_run_bind hrun
  obtain ⟨rfl, hpq⟩ := h p d q hd
  obtain ⟨rfl, hqr⟩ := h' q c r hc
  exact ⟨rfl, hpq.trans hqr⟩

/-- A step that fails gives anything. -/
theorem throw (e : Error) (a : α) : Gives (throw e : Building α) a := by
  intro p b q h
  cases h

/-- A choice of steps gives what each of them gives where it is chosen. -/
theorem ite {c : Prop} [Decidable c] {x y : Building α} {a : α} (h : c → Gives x a)
    (h' : ¬ c → Gives y a) : Gives (if c then x else y) a :=
  iteInduction (motive := fun z => Gives z a) h h'

/-- A refusal changes nothing where it does not apply. -/
theorem refusal (c : Prop) [Decidable c] (e : Error) :
    Gives (if c then MonadExcept.throw e else Pure.pure ()) () :=
  .ite (fun _ => .throw e ()) fun _ => .pure ()

/-- A step after a refusal. -/
theorem afterRefusal {c : Prop} [Decidable c] (e : Error) {f : Unit → Building β} {b : β}
    (h : Gives (f ()) b) :
    Gives (if c then MonadExcept.throw e >>= f else f ()) b :=
  .ite (fun _ => (Gives.throw e ()).bind h) fun _ => h

end Gives

/-- Counting changes nothing but the cost. -/
theorem gives_modifyMeter (count : Meter → Meter) :
    Gives (modify fun p => { p with meter := count p.meter }) () := by
  intro p u q h
  cases h
  exact ⟨rfl, _, rfl⟩

/-- Counting new nodes changes nothing but the cost. -/
theorem gives_addNodes (n : Nat) : Gives (addNodes n) () :=
  gives_modifyMeter (Meter.add n)

/-- Counting nodes that are no longer used changes nothing but the cost. -/
theorem gives_freeNodes (n : Nat) : Gives (freeNodes n) () :=
  gives_modifyMeter (Meter.free n)

/-- Counting the listed characters changes nothing but the cost. -/
theorem gives_listPoints (e : Expr) : Gives (listPoints e) () :=
  gives_modifyMeter (Meter.list e.listedPoints)

/-- Measuring an expression changes nothing but the cost. -/
theorem gives_check (e : Expr) : Gives (check e) () := by
  intro p u q h
  unfold check at h
  obtain ⟨p₁, _, hget, h⟩ := of_run_bind h
  cases hget
  dsimp only at h
  split at h
  · cases h
  · obtain ⟨_, p₂, hset, h⟩ := of_run_bind h
    cases hset
    obtain ⟨hu, htree⟩ := Gives.afterRefusal _ (Gives.refusal _ ⟨.depth, p.whole⟩) _ _ _ h
    exact ⟨hu, Progress.SameTree.trans ⟨_, rfl⟩ htree⟩

/-- An expression that is settled stands as a literal where it can. -/
theorem gives_settle (e : Expr) : Gives (settle e) e.asLiteral :=
  (gives_listPoints e).bind ((gives_check _).bind (.pure _))

/-- Joining the last two literals changes nothing but the cost. -/
theorem gives_joinLast : Gives joinLast () := by
  intro p u q h
  unfold joinLast at h
  obtain ⟨p₁, _, hget, h⟩ := of_run_bind h
  cases hget
  split at h
  · exact gives_freeNodes 1 p u q h
  · cases h
    exact ⟨rfl, .refl p⟩

/-- The items that an expression contributes to a sequence. -/
def itemsOf : Expr → List Expr
  | .sequence items => items
  | e => [e]

/-- Expressions one after another as one expression. -/
def sequenceTree : List Expr → Expr
  | [e] => e
  | es => .sequence (es.flatMap itemsOf)

/-- What a sequence comes to depends on its parts only. -/
theorem gives_sequenceOf (es : List Expr) : Gives (sequenceOf es) (sequenceTree es) := by
  have hitems : ∀ l : List Expr, (l.map fun e =>
      match e with
      | .sequence items => (items, 1)
      | e => ([e], 0)).flatMap Prod.fst = l.flatMap itemsOf := by
    intro l
    rw [List.flatMap_map]
    congr 1
    funext e
    cases e <;> rfl
  match es with
  | [e] => exact .pure e
  | [] => exact (gives_addNodes 1).bind ((gives_freeNodes _).bind (.pure _))
  | e :: e' :: rest =>
    rw [sequenceTree, ← hitems]
    · exact (gives_addNodes 1).bind ((gives_freeNodes _).bind (.pure _))
    · simp

/-- Whether a step that succeeds only changes the cost and gives a value that depends on nothing. -/
def Determined (x : Building α) : Prop :=
  ∃ a, Gives x a

namespace Determined

/-- A step that does nothing is determined. -/
theorem pure (a : α) : Determined (Pure.pure a) :=
  ⟨a, .pure a⟩

/-- Determined steps are determined one after another. -/
theorem bind {x : Building α} {f : α → Building β} (h : Determined x)
    (h' : ∀ a, Determined (f a)) : Determined (x >>= f) := by
  obtain ⟨a, ha⟩ := h
  obtain ⟨b, hb⟩ := h' a
  exact ⟨b, ha.bind hb⟩

/-- A step after one that only changes the cost. -/
theorem after {x : Building Unit} {f : Unit → Building β} (h : Gives x ())
    (h' : Determined (f ())) : Determined (x >>= f) :=
  bind ⟨(), h⟩ fun _ => h'

/-- A determined step for each element of a list is determined. -/
theorem mapM {l : List α} {f : α → Building β} (h : ∀ a, Determined (f a)) :
    Determined (l.mapM f) := by
  induction l with
  | nil => exact pure []
  | cons a l ih =>
    rw [List.mapM_cons]
    exact (h a).bind fun b => ih.bind fun bs => pure _

end Determined

section

variable {again : List Expr → Building Expr} (hagain : ∀ es, Determined (again es))
include hagain

/-- Sharing the beginnings of texts is determined if what is left is treated so. -/
theorem determined_shareTexts (es : List Expr) : Determined (shareTexts again es) := by
  refine .mapM fun run => ?_
  split
  · exact .pure _
  · refine .after (gives_addNodes 1) (.bind (.mapM fun e => ?_) fun rests => ?_)
    · exact .after (gives_freeNodes _) (.after (gives_check _) (.pure _))
    · exact (hagain rests).bind fun rest => .after (gives_addNodes 1) (.pure _)

/-- Sharing first items is determined if what is left is treated so. -/
theorem determined_shareItems (es : List Expr) : Determined (shareItems again es) := by
  refine .mapM fun run => ?_
  split
  · refine .bind (.mapM fun entry => ?_) fun rests => ?_
    · refine .after (gives_freeNodes _) (.after (gives_addNodes _) ?_)
      exact .after (gives_check _) (.pure _)
    · exact (hagain rests).bind fun rest => .after (gives_addNodes 1) (.pure _)
  · exact .pure _
  · exact .pure _

end

/-- Merging neighbours into one set of characters is determined. -/
theorem determined_mergeNeighbours (es : List Expr) : Determined (mergeNeighbours es) := by
  refine .mapM fun run => ?_
  split
  · exact .pure _
  · exact .after (gives_freeNodes _) (.pure _)

/-- What alternatives come to depends on nothing but them. -/
theorem determined_choiceOf (fuel : Nat) (es : List Expr) : Determined (choiceOf fuel es) := by
  induction fuel generalizing es with
  | zero =>
    match es with
    | [e] => exact .pure e
    | [] => exact .pure _
    | e :: e' :: rest => exact .pure _
  | succ fuel ih =>
    unfold choiceOf
    split
    case h_1 => exact .pure _
    case h_2 heq _ => cases heq
    case h_3 heq _ =>
      obtain rfl := Nat.succ.inj heq
      refine .after (gives_addNodes 1) (.after (gives_freeNodes _) ?_)
      refine (determined_shareTexts ih _).bind fun es => ?_
      refine (determined_shareItems ih es).bind fun es => ?_
      refine (determined_mergeNeighbours es).bind fun es => ?_
      split
      · exact .after (gives_freeNodes 1) (.pure _)
      · exact .pure _

/-- Whether a step that succeeds gives a certain value and a certain stage, up to the cost. -/
def LeadsTo (x : Building α) (p : Progress) (a : α) (q : Progress) : Prop :=
  ∀ b r, x p = .ok (b, r) → b = a ∧ q.SameTree r

/-- A step that only changes the cost leads back to its own stage. -/
theorem Gives.leadsTo {x : Building α} {a : α} (h : Gives x a) (p : Progress) :
    LeadsTo x p a p :=
  h p

namespace LeadsTo

variable {p q r : Progress} {a : α} {b : β}

/-- A step that does nothing leads to its own stage. -/
theorem pure (a : α) (p : Progress) : LeadsTo (Pure.pure a) p a p :=
  Gives.pure a p

/-- A step that fails leads anywhere. -/
theorem throw (e : Error) (p : Progress) (a : α) (q : Progress) :
    LeadsTo (throw e : Building α) p a q := by
  intro b r h
  cases h

/-- A change leads to the changed stage. -/
theorem modify (g : Progress → Progress) (p : Progress) :
    LeadsTo (modify g : Building Unit) p () (g p) := by
  intro u r h
  cases h
  exact ⟨rfl, .refl _⟩

/-- A step after another. What the first one cost makes no difference to what is built. -/
theorem bind {x : Building α} {f : α → Building β} (h : LeadsTo x p a q)
    (h' : ∀ m, LeadsTo (f a) { q with meter := m } b { r with meter := m }) :
    LeadsTo (x >>= f) p b r := by
  intro c s hrun
  obtain ⟨d, t, hd, hc⟩ := of_run_bind hrun
  obtain ⟨rfl, m, rfl⟩ := h d t hd
  obtain ⟨rfl, m', rfl⟩ := h' m c s hc
  exact ⟨rfl, m', rfl⟩

/-- A step that looks at what has been built. -/
theorem get {f : Progress → Building β} (h : LeadsTo (f p) p b r) :
    LeadsTo (get >>= f) p b r := by
  intro c s hrun
  obtain ⟨d, t, hget, hc⟩ := of_run_bind hrun
  cases hget
  exact h c s hc

/-- A step after a reading that does not build. -/
theorem lift {e : Except Error α} {f : α → Building β} (h : ∀ a, e = .ok a → LeadsTo (f a) p b r) :
    LeadsTo ((liftM e : Building α) >>= f) p b r := by
  intro c s hrun
  obtain ⟨a, t, hread, hc⟩ := of_run_bind hrun
  obtain ⟨ha, rfl⟩ := of_run_lift hread
  exact h a ha c s hc

/-- A choice of steps leads where each of them leads when it is chosen. -/
theorem ite {c : Prop} [Decidable c] {x y : Building α} (h : c → LeadsTo x p a q)
    (h' : ¬ c → LeadsTo y p a q) : LeadsTo (if c then x else y) p a q :=
  iteInduction (motive := fun z => LeadsTo z p a q) h h'

end LeadsTo

/-- An expression as it stands among the items. -/
def pushed (e : Expr) : Expr :=
  match e, e.asLiteral with
  | .chars _, .literal ignoreCase points => .literal ignoreCase points
  | e, _ => e

/-- A set of characters that a literal stands for is pushed as this literal. -/
theorem pushed_of_literal {set : CharSet} {ignoreCase : Bool} {points : List Nat}
    (h : (Expr.chars set).asLiteral = .literal ignoreCase points) :
    pushed (.chars set) = .literal ignoreCase points := by
  simp only [pushed, h]

/-- All other expressions are pushed as they are. -/
theorem pushed_of_no_literal {e : Expr}
    (h : ∀ set ignoreCase points, e = .chars set → e.asLiteral ≠ .literal ignoreCase points) :
    pushed e = e := by
  unfold pushed
  split
  case h_1 hset => exact absurd hset (h _ _ _ rfl)
  case h_2 => rfl

/-- Pushing an expression makes it the last item. -/
theorem leadsTo_push (e : Expr) (p : Progress) :
    LeadsTo (push e) p () { p with items := pushed e :: p.items, lastRepeat := none } := by
  unfold push
  refine ((gives_listPoints e).leadsTo p).bind fun m => .get ?_
  split
  case h_1 hset =>
    rw [pushed_of_literal hset]
    refine (LeadsTo.modify _ _).bind fun m' => ?_
    exact .ite (fun _ => .pure () _) fun _ => (gives_check _).leadsTo _
  case h_2 hset =>
    rw [pushed_of_no_literal fun set c points hset' => hset set c points hset']
    refine (gives_joinLast.leadsTo _).bind fun m' => (LeadsTo.modify _ _).bind fun m'' => ?_
    exact (gives_check _).leadsTo _

/-- Pushing a new expression makes it the last item. -/
theorem leadsTo_pushNew (e : Expr) (p : Progress) :
    LeadsTo (pushNew e) p () { p with items := pushed e :: p.items, lastRepeat := none } :=
  ((gives_addNodes 1).leadsTo p).bind fun _ => leadsTo_push e _

/-- A character as it stands among the items. -/
def literalItem (ignoreCase : Bool) (point : Nat) : Expr :=
  if ignoreCase then .literal true [(CaseOrbit.of point).foldl min point]
  else .literal false [point]

/-- Pushing a character makes it the last item, folded when case is ignored. -/
theorem leadsTo_pushLiteral (point : Nat) (p : Progress) :
    LeadsTo (pushLiteral point) p ()
      { p with items := literalItem p.flags.ignoreCase point :: p.items, lastRepeat := none } := by
  unfold pushLiteral literalItem
  refine .get ?_
  by_cases h : p.flags.ignoreCase
  · simp only [if_pos h]
    exact leadsTo_pushNew _ p
  · simp only [if_neg h]
    exact leadsTo_pushNew _ p

/-- An alternative that is made up of items. -/
def branchTree (items : List Expr) : Expr :=
  match Expr.joinLiterals items.reverse with
  | [] => .empty
  | es => (sequenceTree es).asLiteral

/-- What an alternative comes to depends on its items only. -/
theorem gives_branchOf (items : List Expr) : Gives (branchOf items) (branchTree items) := by
  unfold branchOf branchTree
  cases Expr.joinLiterals items.reverse with
  | nil => exact (gives_addNodes 1).bind (gives_settle .empty)
  | cons e es => exact (gives_sequenceOf (e :: es)).bind (gives_settle _)

/-- The alternatives of a group with one more. -/
def withBranch (branches : List Expr) (e : Expr) : List Expr :=
  match branches with
  | last :: others =>
    if last.isOneChar && e.isOneChar then Expr.mergeChars [last, e] :: others
    else e.asDot :: branches
  | [] => [e.asDot]

/-- An alternative is added to those of the open group. -/
theorem leadsTo_addBranch (e : Expr) (p : Progress) :
    LeadsTo (addBranch e) p () { p with branches := withBranch p.branches e } := by
  unfold addBranch
  refine .get ?_
  match hbranches : p.branches with
  | last :: others =>
    by_cases hchars : (last.isOneChar && e.isOneChar) = true
    · simp only [withBranch, if_pos hchars]
      exact ((gives_freeNodes 1).leadsTo p).bind fun m => .modify _ _
    · simp only [withBranch, if_neg hchars, ← hbranches]
      exact .modify _ p
  | [] => exact .modify _ p

/-- The items so far become an alternative. -/
theorem leadsTo_endBranch (p : Progress) :
    LeadsTo endBranch p ()
      { p with branches := withBranch p.branches (branchTree p.items), items := []
               lastRepeat := none } := by
  unfold endBranch
  refine (gives_joinLast.leadsTo p).bind fun m => .get ((LeadsTo.modify _ _).bind fun m' => ?_)
  exact ((gives_branchOf p.items).leadsTo _).bind fun m'' => leadsTo_addBranch _ _

/-- A bar ends an alternative. -/
theorem leadsTo_bar (p : Progress) :
    LeadsTo bar p ()
      { p with branches := withBranch p.branches (branchTree p.items), items := []
               lastRepeat := none } := by
  unfold bar
  refine .get ((leadsTo_endBranch p).bind fun m => Gives.leadsTo (.ite (fun _ => ?_) fun _ => ?_) _)
  · exact (gives_addNodes 1).bind (gives_check .empty)
  · exact .pure ()

/-- The expression of a group depends on its alternatives and items alone. -/
theorem exists_leadsTo_current (branches items : List Expr) :
    ∃ e : Expr, ∀ p : Progress, p.branches = branches → p.items = items →
      LeadsTo current p e.asLiteral
        { p with branches := [], items := [], lastRepeat := none } := by
  let all := withBranch branches (branchTree items)
  obtain ⟨e, he⟩ := determined_choiceOf (Expr.sizeOfAll all) all.reverse
  refine ⟨e, ?_⟩
  rintro p rfl rfl
  unfold current
  refine (leadsTo_endBranch p).bind fun m => .get ((LeadsTo.modify _ _).bind fun m' => ?_)
  exact (he.bind (gives_settle e)).leadsTo _

/-- A group without a bar between alternatives is its only alternative. -/
theorem leadsTo_current_single {p : Progress} (h : p.branches = []) :
    LeadsTo current p (branchTree p.items).asDot.asLiteral
      { p with branches := [], items := [], lastRepeat := none } := by
  unfold current
  refine (leadsTo_endBranch p).bind fun m => .get ((LeadsTo.modify _ _).bind fun m' => ?_)
  simp only [h, withBranch]
  refine Gives.leadsTo (.bind (a := (branchTree p.items).asDot) ?_ (gives_settle _)) _
  unfold choiceOf
  exact .pure _

/-- Opening a group puts the stage around it aside. -/
theorem leadsTo_openGroup (capturing : Bool) (inner : Flags) (p : Progress) :
    LeadsTo (openGroup capturing inner) p ()
      { p with
        flags := inner, groups := ⟨capturing, p.flags, p.branches, p.items⟩ :: p.groups
        branches := [], items := [], lastRepeat := none } := by
  unfold openGroup
  refine ((gives_addNodes 1).leadsTo p).bind fun m => (gives_joinLast.leadsTo _).bind fun m' => ?_
  exact (LeadsTo.modify _ _).bind fun m'' => (gives_check .empty).leadsTo _

/-- Closing a group brings the stage around it back, with the group as its last item. -/
theorem leadsTo_closeGroup {p : Progress} {g : OpenGroup} {groups : List OpenGroup} {e : Expr}
    (h : p.groups = g :: groups)
    (he : LeadsTo current p e { p with branches := [], items := [], lastRepeat := none }) :
    LeadsTo closeGroup p ()
      { p with
        flags := g.outerFlags, groups, branches := g.outerBranches
        items := pushed (if g.capturing then .group e else e) :: g.outerItems
        lastRepeat := none } := by
  unfold closeGroup
  refine he.bind fun m => .get ?_
  simp only [h]
  exact (LeadsTo.modify _ _).bind fun m' => leadsTo_push _ _

/-- Nothing is closed where no group is open. -/
theorem closeGroup_ne_ok {p q : Progress} {u : Unit} (h : p.groups = []) :
    closeGroup p ≠ .ok (u, q) := by
  intro hrun
  obtain ⟨e, he⟩ := exists_leadsTo_current p.branches p.items
  unfold closeGroup at hrun
  obtain ⟨d, p₁, hd, hrun⟩ := of_run_bind hrun
  obtain ⟨rfl, m, rfl⟩ := he p rfl rfl d p₁ hd
  obtain ⟨_, _, hget, hrun⟩ := of_run_bind hrun
  cases hget
  simp only [h] at hrun
  cases hrun

/-- A repetition is applied to the last item, and a question mark behind it turns its greediness. -/
theorem leadsTo_repeatLast (repetition : Repetition) (before after : Bytes) (p : Progress) :
    LeadsTo (repeatLast repetition before after) p (splitQuest after).2
      { p with
        items := p.items.modifyHead (repetition.apply (p.flags.reluctant != (splitQuest after).1))
        lastRepeat := some before } := by
  unfold repeatLast
  refine .get ?_
  split
  case h_1 => exact .throw _ _ _ _
  case h_2 => exact .throw _ _ _ _
  case h_3 operand items hnone hitems =>
    rw [hitems]
    refine ((gives_addNodes 1).leadsTo p).bind fun _ => (LeadsTo.modify _ _).bind fun _ => ?_
    refine ((gives_check _).leadsTo _).bind fun _ => ?_
    exact .ite (fun _ => .bind (.throw _ _ () _) fun _ => .pure _ _) fun _ => .pure _ _

end Building

end ReturnAudit.Regex
