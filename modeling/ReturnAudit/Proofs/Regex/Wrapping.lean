import ReturnAudit.Proofs.Regex.Locality

/-!
# Expressions inside a group of their own

An expression that is read inside a group of its own, between a start anchor and an end anchor, is
built up there as it is built up alone. When it can be read alone, the expression that is read
between the anchors is the sequence of the start anchor, the expression and the end anchor.
-/

namespace ReturnAudit.Regex

variable {α β : Type}

/-- The group that an expression between anchors is read in. -/
def outerGroup : OpenGroup :=
  ⟨false, {}, [], [.assert .textStart]⟩

/-- Whether a stage of an expression is also the stage of the expression inside the outer group. -/
structure Inside (p p' : Progress) : Prop where
  flags : p'.flags = p.flags
  branches : p'.branches = p.branches
  items : p'.items = p.items
  groups : p'.groups = p.groups ++ [outerGroup]

/-- What an expression has cost makes no difference to being inside. -/
theorem Inside.sameTree {p p' q q' : Progress} (h : Inside p p') (hq : p.SameTree q)
    (hq' : p'.SameTree q') : Inside q q' := by
  obtain ⟨m, rfl⟩ := hq
  obtain ⟨m', rfl⟩ := hq'
  exact ⟨h.flags, h.branches, h.items, h.groups⟩

namespace Building

/-- Whether two steps that succeed, one alone and one inside the outer group, give values that
belong together and keep the expression the same. -/
def Keeps (φ : α → β → Prop) (x : Building α) (y : Building β) : Prop :=
  ∀ p p', Inside p p' → ∀ a b q q', x p = .ok (a, q) → y p' = .ok (b, q') → φ a b ∧ Inside q q'

/-- What is left alone, and inside the outer group. -/
def Ahead (r r' : Bytes) : Prop :=
  r' = r ++ closing

/-- Values that tell nothing. -/
def NoMatter (_ _ : Unit) : Prop :=
  True

namespace Keeps

variable {γ δ : Type} {φ : α → β → Prop} {ψ : γ → δ → Prop} {x x' : Building α} {y y' : Building β}

/-- Steps that do nothing keep the expression the same. -/
theorem pure {a : α} {b : β} (h : φ a b) : Keeps φ (Pure.pure a) (Pure.pure b) := by
  rintro p p' hin _ _ q q' ⟨⟩ ⟨⟩
  exact ⟨h, hin⟩

/-- A step that fails keeps anything. -/
theorem throw (e : Error) (y : Building β) : Keeps φ (throw e : Building α) y := by
  rintro p p' hin a b q q' ⟨⟩

/-- Steps that keep the expression the same do so one after another. -/
theorem bind {f : α → Building γ} {g : β → Building δ} (h : Keeps φ x y)
    (h' : ∀ a b, φ a b → Keeps ψ (f a) (g b)) : Keeps ψ (x >>= f) (y >>= g) := by
  intro p p' hin c d q q' hx hy
  obtain ⟨a, p₁, ha, hc⟩ := of_run_bind hx
  obtain ⟨b, p₁', hb, hd⟩ := of_run_bind hy
  obtain ⟨hab, hin₁⟩ := h p p' hin a b p₁ p₁' ha hb
  exact h' a b hab p₁ p₁' hin₁ c d q q' hc hd

/-- A step that looks at what has been built. -/
theorem get {f : Progress → Building γ} {g : Progress → Building δ}
    (h : ∀ p p', Inside p p' → Keeps ψ (f p) (g p')) : Keeps ψ (get >>= f) (get >>= g) := by
  intro p p' hin c d q q' hx hy
  obtain ⟨_, _, hget, hc⟩ := of_run_bind hx
  cases hget
  obtain ⟨_, _, hget, hd⟩ := of_run_bind hy
  cases hget
  exact h p p' hin p p' hin c d q q' hc hd

/-- A step after a reading that does not build. -/
theorem lift {e : Except Error α} {e' : Except Error β} {f : α → Building γ} {g : β → Building δ}
    (h : ∀ a, e = .ok a → ∃ b, e' = .ok b ∧ Keeps ψ (f a) (g b)) :
    Keeps ψ ((liftM e : Building α) >>= f) ((liftM e' : Building β) >>= g) := by
  intro p p' hin c d q q' hx hy
  obtain ⟨a, p₁, ha, hc⟩ := of_run_bind hx
  obtain ⟨b, p₁', hb, hd⟩ := of_run_bind hy
  obtain ⟨hread, rfl⟩ := of_run_lift ha
  obtain ⟨hread', rfl⟩ := of_run_lift hb
  obtain ⟨b', hb', hkeeps⟩ := h a hread
  obtain rfl := Except.ok.inj (hread'.symm.trans hb')
  exact hkeeps p₁ p₁' hin c d q q' hc hd

/-- A choice of steps keeps what each of them keeps where it is chosen. -/
theorem ite {c : Prop} [Decidable c] (h : c → Keeps φ x y) (h' : ¬ c → Keeps φ x' y') :
    Keeps φ (if c then x else x') (if c then y else y') :=
  rel_ite h h'

/-- Steps that lead to certain stages keep the expression the same if these stages belong
together. -/
theorem of_leadsTo {a : α} {b : β} {F G : Progress → Progress}
    (h : ∀ p, LeadsTo x p a (F p)) (h' : ∀ p, LeadsTo y p b (G p)) (hab : φ a b)
    (hFG : ∀ p p', Inside p p' → Inside (F p) (G p')) : Keeps φ x y := by
  intro p p' hin c d q q' hx hy
  obtain ⟨rfl, hq⟩ := h p c q hx
  obtain ⟨rfl, hq'⟩ := h' p' d q' hy
  exact ⟨hab, (hFG p p' hin).sameTree hq hq'⟩

end Keeps

/-- A new expression is pushed inside as it is alone. -/
theorem keeps_pushNew (e : Expr) : Keeps NoMatter (pushNew e) (pushNew e) := by
  refine .of_leadsTo (leadsTo_pushNew e) (leadsTo_pushNew e) trivial fun p p' hin => ?_
  exact ⟨hin.flags, hin.branches, by simp only [hin.items], hin.groups⟩

/-- A character is pushed inside as it is alone. -/
theorem keeps_pushLiteral (point : Nat) :
    Keeps NoMatter (pushLiteral point) (pushLiteral point) := by
  refine .of_leadsTo (leadsTo_pushLiteral point) (leadsTo_pushLiteral point) trivial
    fun p p' hin => ?_
  refine ⟨hin.flags, hin.branches, ?_, hin.groups⟩
  simp only [hin.flags, hin.items]

/-- An alternative ends inside as it does alone. -/
theorem keeps_bar : Keeps NoMatter bar bar := by
  refine .of_leadsTo leadsTo_bar leadsTo_bar trivial fun p p' hin => ?_
  exact ⟨hin.flags, by simp only [hin.branches, hin.items], rfl, hin.groups⟩

/-- A group opens inside as it does alone. -/
theorem keeps_openGroup (capturing : Bool) (inner : Flags) :
    Keeps NoMatter (openGroup capturing inner) (openGroup capturing inner) := by
  refine .of_leadsTo (leadsTo_openGroup capturing inner) (leadsTo_openGroup capturing inner) trivial
    fun p p' hin => ⟨rfl, rfl, rfl, ?_⟩
  simp only [hin.flags, hin.branches, hin.items, hin.groups, List.cons_append]

/-- Alone, no group is closed but one that was opened. -/
theorem keeps_closeGroup : Keeps NoMatter closeGroup closeGroup := by
  intro p p' hin a b q q' hx hy
  cases hgroups : p.groups with
  | nil => exact absurd hx (closeGroup_ne_ok hgroups)
  | cons g groups =>
    obtain ⟨e, he⟩ := exists_leadsTo_current p.branches p.items
    have hgroups' : p'.groups = g :: (groups ++ [outerGroup]) := by
      rw [hin.groups, hgroups, List.cons_append]
    obtain ⟨-, hq⟩ := leadsTo_closeGroup hgroups (he p rfl rfl) a q hx
    obtain ⟨-, hq'⟩ := leadsTo_closeGroup hgroups' (he p' hin.branches hin.items) b q' hy
    refine ⟨trivial, Inside.sameTree ?_ hq hq'⟩
    exact ⟨rfl, rfl, rfl, rfl⟩

/-- Flags are set inside as they are alone. -/
theorem keeps_setFlags (flags : Flags) :
    Keeps NoMatter (modify fun p => { p with flags, lastRepeat := none })
      (modify fun p => { p with flags, lastRepeat := none }) := by
  rintro p p' hin _ _ q q' ⟨⟩ ⟨⟩
  exact ⟨trivial, rfl, hin.branches, hin.items, hin.groups⟩

/-- A question mark is split off in front of the closing as it is at the end. -/
theorem splitQuest_closing (s : Bytes) :
    splitQuest (s ++ closing) = ((splitQuest s).1, (splitQuest s).2 ++ closing) := by
  unfold splitQuest
  split
  case h_1 heq =>
    obtain ⟨s, rfl, rfl⟩ := exists_of_append_closing (by decide) heq
    rfl
  case h_2 hne =>
    split
    case h_1 => exact (hne _ rfl).elim
    case h_2 => rfl

/-- The last item is repeated inside as it is alone. -/
theorem keeps_repeatLast (repetition : Repetition) (before before' after : Bytes) :
    Keeps Ahead (repeatLast repetition before after)
      (repeatLast repetition before' (after ++ closing)) := by
  refine .of_leadsTo (leadsTo_repeatLast _ _ _) (leadsTo_repeatLast _ _ _)
    (congrArg Prod.snd (splitQuest_closing after)) fun p p' hin => ?_
  refine ⟨hin.flags, hin.branches, ?_, hin.groups⟩
  simp only [hin.flags, hin.items, splitQuest_closing]

/-- A step after which a certain text is left. -/
theorem Keeps.andReturn {u : Building Unit} (h : Keeps NoMatter u u) (rest : Bytes) :
    Keeps Ahead (do u; return rest) (do u; return rest ++ closing) :=
  h.bind fun _ _ _ => .pure rfl

/-- A step after a reading. -/
theorem Keeps.afterReading {γ : Type} {e e' : Except Error (γ × Bytes)}
    (h : Carries withClosing e e') {u : γ → Building Unit} (hu : ∀ c, Keeps NoMatter (u c) (u c)) :
    Keeps Ahead (do let (c, rest) ← e; u c; return rest)
      (do let (c, rest) ← e'; u c; return rest) :=
  .lift fun a ha => ⟨withClosing a, h a ha, (hu a.1).andReturn a.2⟩

/-- Flags are read inside as they are alone. -/
theorem keeps_readFlags {n n' : Nat} (hn : n ≤ n') (start start' : Bytes) (flags : Flags)
    (sign : FlagSign) (s : Bytes) :
    Keeps Ahead (readFlags start n flags sign s)
      (readFlags start' n' flags sign (s ++ closing)) := by
  induction n generalizing n' flags sign s with
  | zero => exact .throw _ _
  | succ n ih =>
    obtain ⟨n', rfl⟩ : ∃ m, n' = m + 1 := ⟨n' - 1, by omega⟩
    cases s with
    | nil => exact .throw _ _
    | cons b s =>
      refine .lift fun ⟨point, rest⟩ hread => ⟨_, readChar_carries (by simp) _ hread, ?_⟩
      have hmore : ∀ flags sign, Keeps Ahead (readFlags start n flags sign rest)
          (readFlags start' n' flags sign (rest ++ closing)) :=
        fun flags sign => ih (Nat.le_of_succ_le_succ hn) flags sign rest
      refine .ite (fun _ => hmore _ _) fun _ => .ite (fun _ => hmore _ _) fun _ => ?_
      refine .ite (fun _ => hmore _ _) fun _ => .ite (fun _ => hmore _ _) fun _ => ?_
      refine .ite (fun _ => ?_) fun _ => .ite (fun _ => ?_) fun _ => .throw _ _
      · cases sign with
        | on => exact hmore _ _
        | off saw => exact .throw _ _
      · dsimp only [withClosing]
        split
        case h_1 => exact .throw _ _
        case h_2 =>
          refine .ite (fun _ => ?_) fun _ => ?_
          · exact (keeps_openGroup false flags).andReturn rest
          · exact (keeps_setFlags flags).andReturn rest

/-- The name of a group is read inside as it is alone. -/
theorem keeps_readGroupName (s : Bytes) (skip : Nat) :
    Keeps Ahead (readGroupName s skip) (readGroupName (s ++ closing) skip) := by
  unfold readGroupName
  cases hcut : Bytes.cut 62 s with
  | none =>
    intro p p' _ a b q q' hx
    obtain ⟨_, _, _, hfault⟩ := of_run_bind hx
    cases hfault
  | some parts =>
    obtain ⟨before, rest⟩ := parts
    rw [Bytes.cut_append hcut]
    refine .lift fun a ha => ⟨a, ha, .ite (fun _ => ?_) fun _ => ?_⟩
    · refine .get fun p p' hin => ?_
      rw [hin.flags]
      exact (keeps_openGroup true p.flags).andReturn rest
    · exact .bind (φ := fun _ _ => False) (.throw _ _) fun _ _ h => h.elim

/-- A letter that starts nothing known after a question mark. -/
theorem readFlags_ne_ok {b : UInt8} (hb : b = 60 ∨ b = 80) (start : Bytes) (n : Nat) (flags : Flags)
    (s : Bytes) (p q : Progress) (r : Bytes) :
    readFlags start n flags .on (b :: s) p ≠ .ok (r, q) := by
  intro hrun
  cases n with
  | zero => cases hrun
  | succ n =>
    rcases hb with rfl | rfl <;> cases hrun

/-- A group that is not named begins with flags. -/
theorem readGroupStart_eq {rest : Bytes} (hlong : ∀ x y, rest ≠ 80 :: 60 :: x :: y)
    (hshort : ∀ x y, rest ≠ 60 :: x :: y) (b c : UInt8) :
    readGroupStart (b :: c :: rest) = get >>= fun p =>
      readFlags (b :: c :: rest) (rest.length + 1) p.flags .on rest := by
  unfold readGroupStart
  split
  case h_1 heq => exact (hlong _ _ heq).elim
  case h_2 heq => exact (hshort _ _ heq).elim
  case h_3 => rfl

/-- The start of a group is read inside as it is alone. -/
theorem keeps_readGroupStart (b c : UInt8) (rest : Bytes) :
    Keeps Ahead (readGroupStart (b :: c :: rest)) (readGroupStart (b :: c :: rest ++ closing)) := by
  by_cases hlong : ∃ x y, rest = 80 :: 60 :: x :: y
  · obtain ⟨x, y, rfl⟩ := hlong
    exact keeps_readGroupName _ 4
  by_cases hshort : ∃ x y, rest = 60 :: x :: y
  · obtain ⟨x, y, rfl⟩ := hshort
    exact keeps_readGroupName _ 3
  rw [readGroupStart_eq (fun x y h => hlong ⟨x, y, h⟩) fun x y h => hshort ⟨x, y, h⟩]
  by_cases hend : rest = [80, 60] ∨ rest = [60]
  · -- the closing would complete the start of a name, which the text alone does not have
    intro p p' _ a _ q _ hx
    obtain ⟨_, _, hget, hx⟩ := of_run_bind hx
    cases hget
    rcases hend with rfl | rfl
    · exact absurd hx (readFlags_ne_ok (.inr rfl) _ _ _ _ _ _ _)
    · exact absurd hx (readFlags_ne_ok (.inl rfl) _ _ _ _ _ _ _)
  have hshort' : ∀ {r : Bytes}, r ≠ [60] → (¬ ∃ x y, r = 60 :: x :: y) →
      ∀ s, r ++ closing ≠ 60 :: s := by
    intro r hne hr s h
    obtain ⟨r, rfl, -⟩ := exists_of_append_closing (by decide) h
    cases r with
    | nil => exact hne rfl
    | cons x y => exact hr ⟨x, y, rfl⟩
  rw [List.cons_append, List.cons_append, readGroupStart_eq]
  · refine .get fun p p' hin => ?_
    rw [hin.flags]
    exact keeps_readFlags (by simp) _ _ _ _ rest
  · intro x y h
    obtain ⟨rest, rfl, hrest⟩ := exists_of_append_closing (by decide) h
    refine hshort' ?_ ?_ _ hrest.symm
    · rintro rfl
      exact hend (.inl rfl)
    · rintro ⟨x, y, rfl⟩
      exact hlong ⟨x, y, rfl⟩
  · exact fun x y => hshort' (fun h => hend (.inr h)) hshort _

/-- Quoted characters are pushed inside as they are alone. -/
theorem keeps_pushLiterals (n : Nat) (s : Bytes) :
    Keeps NoMatter (pushLiterals n s) (pushLiterals n s) := by
  induction n generalizing s with
  | zero =>
    cases s with
    | nil =>
      rintro p p' hin _ _ q q' ⟨⟩ ⟨⟩
      exact ⟨trivial, hin.flags, hin.branches, hin.items, hin.groups⟩
    | cons b s => exact .pure trivial
  | succ n ih =>
    cases s with
    | nil =>
      rintro p p' hin _ _ q q' ⟨⟩ ⟨⟩
      exact ⟨trivial, hin.flags, hin.branches, hin.items, hin.groups⟩
    | cons b s =>
      refine .lift fun ⟨point, rest⟩ hread => ⟨_, hread, ?_⟩
      exact (keeps_pushLiteral point).bind fun _ _ _ => ih rest

/-- Characters open and close no group. -/
theorem groups_of_pushLiterals {n : Nat} {s : Bytes} {p q : Progress} {u : Unit}
    (h : pushLiterals n s p = .ok (u, q)) : q.groups = p.groups := by
  induction n generalizing s p with
  | zero => cases s <;> cases h <;> rfl
  | succ n ih =>
    cases s with
    | nil =>
      cases h
      rfl
    | cons b s =>
      obtain ⟨⟨point, rest⟩, p₁, hread, hrun⟩ := of_run_bind h
      obtain ⟨-, rfl⟩ := of_run_lift hread
      obtain ⟨_, p₂, hpush, hrun⟩ := of_run_bind hrun
      obtain ⟨-, m, rfl⟩ := leadsTo_pushLiteral point _ _ _ hpush
      rw [ih hrun]

/-- Whether two readings that succeed, one alone and one inside the outer group, keep the expression
the same, unless the second one reads the closing as well and leaves the outer group open. -/
def Follows (x y : Building Bytes) : Prop :=
  ∀ p p', Inside p p' → ∀ r r' q q', x p = .ok (r, q) → y p' = .ok (r', q') →
    (r' = r ++ closing ∧ Inside q q') ∨ (r' = [] ∧ q'.groups ≠ [])

/-- Steps that keep the expression the same follow each other. -/
theorem Keeps.follows {x y : Building Bytes} (h : Keeps Ahead x y) : Follows x y :=
  fun p p' hin r r' q q' hx hy => .inl (h p p' hin r r' q q' hx hy)

/-- A choice of readings follows another if each of them does where it is chosen. -/
theorem Follows.ite {x x' y y' : Building Bytes} {c : Prop} [Decidable c] (h : c → Follows x y)
    (h' : ¬ c → Follows x' y') : Follows (if c then x else x') (if c then y else y') :=
  rel_ite h h'

/-- Readings that look at related stages follow each other if what comes of them does. -/
theorem Follows.get {f g : Progress → Building Bytes}
    (h : ∀ p p', Inside p p' → Follows (f p) (g p')) : Follows (get >>= f) (get >>= g) := by
  intro p p' hin r r' q q' hx hy
  obtain ⟨_, _, hget, hx⟩ := of_run_bind hx
  cases hget
  obtain ⟨_, _, hget, hy⟩ := of_run_bind hy
  cases hget
  exact h p p' hin p p' hin r r' q q' hx hy

/-- A quotation that does not end reads the closing. -/
theorem follows_readQuotation (s : Bytes) :
    Follows (readQuotation s) (readQuotation (s ++ closing)) := by
  unfold readQuotation
  cases hcut : Bytes.cutInfix "\\E" s with
  | none =>
    rw [Bytes.cutInfix_append_eq_none (by decide) hcut (by decide +kernel)]
    intro p p' hin r r' q q' _ hy
    obtain ⟨_, p₁, hpush, hy⟩ := of_run_bind hy
    cases hy
    rw [groups_of_pushLiterals hpush, hin.groups]
    exact .inr ⟨rfl, by simp⟩
  | some parts =>
    obtain ⟨quoted, rest⟩ := parts
    have hlength : 2 ≤ rest.length := (Bytes.prefix_of_cutInfix hcut).length_le
    rw [Bytes.cutInfix_append hcut]
    dsimp only
    rw [List.drop_append_of_le_length hlength]
    exact ((keeps_pushLiterals _ quoted).andReturn _).follows

/-- Braces are read inside as they are alone. -/
theorem keeps_readBraces (b : UInt8) (rest : Bytes) :
    Keeps Ahead (readBraces (b :: rest)) (readBraces (b :: rest ++ closing)) := by
  unfold readBraces
  rw [readBounds?_closing (List.cons_ne_nil b rest)]
  cases readBounds? (b :: rest) with
  | none => exact (keeps_pushLiteral 123).andReturn rest
  | some bounds =>
    obtain ⟨least, most, after⟩ := bounds
    refine .ite (fun _ => ?_) fun _ => ?_
    · exact .bind (φ := fun _ _ => False) (.throw _ _) fun _ _ h => h.elim
    · exact keeps_repeatLast _ _ _ after

/-- A single byte is no property. -/
theorem propertyEscape?_single (ignoreCase : Bool) (b : UInt8) :
    propertyEscape? ignoreCase [b] = .ok none := by
  by_cases hb : b = 92
  · rw [hb]
    rfl
  · exact propertyEscape?_of_ne hb ignoreCase []

/-- A single byte is no class. -/
theorem classEscape?_single (ignoreCase : Bool) (b : UInt8) :
    classEscape? ignoreCase [b] = none := by
  unfold classEscape?
  split
  case h_1 heq => cases heq
  case h_2 => rfl

/-- A backslash at the end of the text stands for nothing. -/
theorem readBackslash_single_ne_ok (b : UInt8) (p q : Progress) (r : Bytes) :
    readBackslash [b] p ≠ .ok (r, q) := by
  intro hrun
  unfold readBackslash at hrun
  iterate 6 rw [if_neg (by simp)] at hrun
  obtain ⟨_, _, hget, hrun⟩ := of_run_bind hrun
  cases hget
  obtain ⟨property, _, hproperty, hrun⟩ := of_run_bind hrun
  obtain ⟨hproperty, rfl⟩ := of_run_lift hproperty
  obtain rfl := Except.ok.inj ((propertyEscape?_single _ b).symm.trans hproperty)
  rw [classEscape?_single] at hrun
  obtain ⟨_, _, hread, _⟩ := of_run_bind hrun
  cases hread

/-- A part that begins with a backslash is read inside as it is alone, unless it quotes the
closing. -/
theorem follows_readBackslash (b : UInt8) (rest : Bytes) :
    Follows (readBackslash (b :: rest)) (readBackslash (b :: rest ++ closing)) := by
  cases rest with
  | nil =>
    intro p p' _ r r' q q' hx
    exact absurd hx (readBackslash_single_ne_ok b p q r)
  | cons c rest =>
    unfold readBackslash
    have hanchor : ∀ condition, Follows
        (do pushNew (.assert condition); return rest)
        (do pushNew (.assert condition); return rest ++ closing) :=
      fun condition => ((keeps_pushNew _).andReturn rest).follows
    refine .ite (fun _ => hanchor _) fun _ => .ite (fun _ => hanchor _) fun _ => ?_
    refine .ite (fun _ => hanchor _) fun _ => .ite (fun _ => hanchor _) fun _ => ?_
    refine .ite (fun _ => (Keeps.throw _ _).follows) fun _ => ?_
    refine .ite (fun _ => follows_readQuotation rest) fun _ => Keeps.follows ?_
    refine .get fun p p' hin => ?_
    rw [hin.flags]
    refine .lift fun property hproperty => ⟨_, propertyEscape?_carries _ _ _ hproperty, ?_⟩
    cases property with
    | some item => exact (keeps_pushNew _).andReturn item.2
    | none =>
      have hclass := classEscape?_closing p.flags.ignoreCase (b :: c :: rest)
      cases hescape : classEscape? p.flags.ignoreCase (b :: c :: rest) with
      | some item =>
        rw [hescape] at hclass
        rw [hclass]
        exact (keeps_pushNew _).andReturn item.2
      | none =>
        rw [hescape] at hclass
        rw [hclass]
        exact .afterReading (readEscape_carries _) keeps_pushLiteral

/-- A part that is read alone is read alike inside the outer group. -/
theorem follows_readPart (b : UInt8) (rest : Bytes) :
    Follows (readPart b rest) (readPart b (rest ++ closing)) := by
  refine .get fun p p' hin => ?_
  rw [hin.flags]
  have hall : ∀ {u : Building Unit}, Keeps NoMatter u u →
      Follows (do u; return rest) (do u; return rest ++ closing) :=
    fun hu => (hu.andReturn rest).follows
  refine .ite (fun _ => ?_) fun _ => ?_
  · split
    case h_1 r => exact (keeps_readGroupStart b 63 r).follows
    case h_2 hplain =>
      split
      case h_1 heq =>
        obtain ⟨r, rfl, -⟩ := exists_of_append_closing (by decide) heq
        exact (hplain _ rfl).elim
      case h_2 => exact hall (keeps_openGroup true p.flags)
  refine .ite (fun _ => hall keeps_bar) fun _ => .ite (fun _ => hall keeps_closeGroup) fun _ => ?_
  refine .ite (fun _ => hall (keeps_pushNew _)) fun _ => ?_
  refine .ite (fun _ => hall (keeps_pushNew _)) fun _ => ?_
  refine .ite (fun _ => hall (keeps_pushNew _)) fun _ => .ite (fun _ => ?_) fun _ => ?_
  · exact Keeps.follows (.afterReading (readBracket_carries (List.cons_ne_nil b rest) _)
      fun set => keeps_pushNew (.chars set))
  refine .ite (fun _ => (keeps_repeatLast _ _ _ rest).follows) fun _ => ?_
  refine .ite (fun _ => (keeps_repeatLast _ _ _ rest).follows) fun _ => ?_
  refine .ite (fun _ => (keeps_repeatLast _ _ _ rest).follows) fun _ => ?_
  refine .ite (fun _ => (keeps_readBraces b rest).follows) fun _ => ?_
  refine .ite (fun _ => follows_readBackslash b rest) fun _ => ?_
  exact Keeps.follows (.afterReading (readChar_carries (List.cons_ne_nil b rest)) keeps_pushLiteral)

/-- Reading alone to the end of the text, and inside the outer group to the closing. -/
theorem readParts_closing {n n' : Nat} {s : Bytes} (hs : s.length ≤ n) (hn : n ≤ n')
    {p p' q q' : Progress} {u u' : Unit} (hin : Inside p p')
    (h : readParts n s p = .ok (u, q)) (h' : readParts (n' + 2) (s ++ closing) p' = .ok (u', q')) :
    (∃ q₁ m, Inside q q₁ ∧ readParts (m + 2) closing q₁ = .ok (u', q')) ∨ q'.groups ≠ [] := by
  induction n generalizing n' s p p' with
  | zero =>
    obtain rfl := List.length_eq_zero_iff.mp (Nat.le_zero.mp hs)
    cases h
    exact .inl ⟨p', n', hin, h'⟩
  | succ n ih =>
    cases s with
    | nil =>
      cases h
      exact .inl ⟨p', n', hin, h'⟩
    | cons b rest =>
      obtain ⟨n', rfl⟩ : ∃ m, n' = m + 1 := ⟨n' - 1, by omega⟩
      obtain ⟨r, p₁, hread, hrest⟩ := of_run_bind h
      obtain ⟨r', p₁', hread', hrest'⟩ := of_run_bind h'
      have hr : r.length ≤ n :=
        Nat.le_trans (leaves_readPart b rest p r p₁ hread).length_le (Nat.le_of_succ_le_succ hs)
      -- either the next part is read alike, or it is a quotation that has taken the closing
      rcases follows_readPart b rest p p' hin r r' p₁ p₁' hread hread' with
        ⟨rfl, hin₁⟩ | ⟨rfl, hgroups⟩
      · exact ih hr (Nat.le_of_succ_le_succ hn) hin₁ hrest hrest'
      · cases hrest'
        exact .inr hgroups

/-- A caret is an anchor at the start of the text. -/
theorem leadsTo_readPart_caret (rest : Bytes) {p : Progress} (h : p.flags.multiline = false) :
    LeadsTo (readPart 94 rest) p rest
      { p with items := .assert .textStart :: p.items, lastRepeat := none } := by
  refine .get ?_
  iterate 3 refine .ite (fun hb => absurd hb (by decide)) fun _ => ?_
  refine .ite (fun _ => ?_) fun hb => absurd rfl hb
  rw [if_neg (by simp [h])]
  exact (leadsTo_pushNew _ p).bind fun _ => .pure _ _

/-- A dollar is an anchor at the end of the text. -/
theorem leadsTo_readPart_dollar (rest : Bytes) {p : Progress} (h : p.flags.multiline = false) :
    LeadsTo (readPart 36 rest) p rest
      { p with items := .assert .textEnd :: p.items, lastRepeat := none } := by
  refine .get ?_
  iterate 4 refine .ite (fun hb => absurd hb (by decide)) fun _ => ?_
  refine .ite (fun _ => ?_) fun hb => absurd rfl hb
  rw [if_neg (by simp [h])]
  exact (leadsTo_pushNew _ p).bind fun _ => .pure _ _

/-- The start of a group that does not capture. -/
theorem leadsTo_readPart_group (rest : Bytes) (p : Progress) :
    LeadsTo (readPart 40 (63 :: 58 :: rest)) p rest
      { p with
        groups := ⟨false, p.flags, p.branches, p.items⟩ :: p.groups, branches := [], items := []
        lastRepeat := none } := by
  refine .get (.ite (fun _ => ?_) fun hb => absurd rfl hb)
  rw [readGroupStart_eq (by simp) (by simp)]
  refine .get (.lift fun a ha => ?_)
  have hcolon : readChar (58 :: rest) = .ok (58, rest) := rfl
  obtain rfl := Except.ok.inj (hcolon.symm.trans ha)
  iterate 5 refine .ite (fun hb => absurd hb (by decide)) fun _ => ?_
  refine .ite (fun _ => .ite (fun _ => ?_) fun hb => absurd rfl hb) fun hb => absurd rfl hb
  exact (leadsTo_openGroup false p.flags p).bind fun _ => .pure _ _

/-- A closing parenthesis closes a group. -/
theorem leadsTo_readPart_close (rest : Bytes) {p q : Progress} (h : LeadsTo closeGroup p () q) :
    LeadsTo (readPart 41 rest) p rest q := by
  refine .get ?_
  iterate 2 refine .ite (fun hb => absurd hb (by decide)) fun _ => ?_
  exact .ite (fun _ => h.bind fun _ => .pure _ _) fun hb => absurd rfl hb

end Building

/-- What stands before an expression that is read between anchors. -/
def opening : Bytes := [94, 40, 63, 58]

open Building

/-- An expression that is read has been read part by part, and no group is left open. -/
theorem exists_of_parse {s : Bytes} {e : Expr} (h : Expr.parse s = .ok e) :
    ∃ q q', readParts s.length s { whole := s } = .ok ((), q) ∧ current q = .ok (e, q') ∧
      q'.groups = [] := by
  obtain ⟨⟨e', q'⟩, hrun, h⟩ := of_bind h
  obtain ⟨_, q, hparts, hcurrent⟩ := of_run_bind hrun
  refine ⟨q, q', hparts, ?_⟩
  dsimp only at h
  split_ifs at h with hgroups
  · cases h
    exact ⟨hcurrent, List.isEmpty_iff.mp hgroups⟩
  · cases h

/-- The outer group is opened before anything of the expression is read. -/
theorem exists_inside_of_opening {n : Nat} {s t whole : Bytes} {q : Progress} {u : Unit}
    (h : readParts (n + 2) (opening ++ s) { whole := t } = .ok (u, q)) :
    ∃ p, Inside { whole } p ∧ readParts n s p = .ok (u, q) := by
  obtain ⟨r, p, hcaret, hrun⟩ := of_run_bind h
  obtain ⟨rfl, m, rfl⟩ := leadsTo_readPart_caret _ rfl r p hcaret
  obtain ⟨r, p, hgroup, hrun⟩ := of_run_bind hrun
  obtain ⟨rfl, m', rfl⟩ := leadsTo_readPart_group s _ r p hgroup
  refine ⟨_, ?_, hrun⟩
  exact ⟨rfl, rfl, rfl, rfl⟩

/-- The closing closes the outer group and adds the end anchor. -/
theorem exists_of_closing {n : Nat} {p p' q : Progress} {u : Unit} {e : Expr} (hin : Inside p p')
    (hgroups : p.groups = [])
    (he : ∀ p'' : Progress, p''.branches = p.branches → p''.items = p.items →
      LeadsTo current p'' e { p'' with branches := [], items := [], lastRepeat := none })
    (h : readParts (n + 2) closing p' = .ok (u, q)) :
    q.branches = [] ∧ q.items = [.assert .textEnd, pushed e, .assert .textStart] ∧
      q.groups = [] := by
  have hgroups' : p'.groups = outerGroup :: [] := by rw [hin.groups, hgroups, List.nil_append]
  have hclose := leadsTo_closeGroup hgroups' (he p' hin.branches hin.items)
  obtain ⟨r, p₁, hread, hrun⟩ := of_run_bind h
  obtain ⟨rfl, m, rfl⟩ := leadsTo_readPart_close [36] hclose r p₁ hread
  obtain ⟨r, p₂, hread, hrun⟩ := of_run_bind hrun
  obtain ⟨rfl, m', rfl⟩ := leadsTo_readPart_dollar [] rfl r p₂ hread
  cases n <;> cases hrun <;> exact ⟨rfl, rfl, rfl⟩

/-- A class stays a class or becomes a literal. -/
theorem asLiteral_chars (set : CharSet) :
    (Expr.chars set).asLiteral = .chars set ∨
      ∃ ignoreCase points, (Expr.chars set).asLiteral = .literal ignoreCase points := by
  unfold Expr.asLiteral
  dsimp only
  split
  case h_1 => split_ifs <;> simp
  case h_2 => split_ifs <;> simp
  case h_3 => exact .inl rfl

/-- What stands as a literal where it can stays so. -/
theorem asLiteral_asLiteral (e : Expr) : e.asLiteral.asLiteral = e.asLiteral := by
  cases e with
  | chars set =>
    rcases asLiteral_chars set with h | ⟨ignoreCase, points, h⟩
    · rw [h, h]
    · rw [h]
      rfl
  | _ => rfl

/-- What stands as a literal where it can is pushed as it is. -/
theorem pushed_asLiteral (e : Expr) : pushed e.asLiteral = e.asLiteral := by
  refine pushed_of_no_literal fun set ignoreCase points hset hliteral => ?_
  rw [asLiteral_asLiteral, hset] at hliteral
  cases hliteral

/-- Anchors around an item are no part of it. -/
theorem branchTree_anchors (e : Expr) :
    branchTree [.assert .textEnd, e, .assert .textStart] =
      .sequence (.assert .textStart :: itemsOf e ++ [.assert .textEnd]) := by
  have hjoin : Expr.joinLiterals [.assert .textStart, e, .assert .textEnd] =
      [.assert .textStart, e, .assert .textEnd] := by
    cases e <;> rfl
  have hreverse : [Expr.assert .textEnd, e, .assert .textStart].reverse =
      [.assert .textStart, e, .assert .textEnd] := rfl
  rw [branchTree, hreverse, hjoin]
  simp [sequenceTree, itemsOf, Expr.asLiteral]

/-- An expression that can be read alone stands between the anchors as a whole. -/
theorem parse_anchored {s : Bytes} {e w : Expr} (h : Expr.parse s = .ok e)
    (h' : Expr.parse (opening ++ s ++ closing) = .ok w) :
    w = .sequence (.assert .textStart :: itemsOf e ++ [.assert .textEnd]) := by
  obtain ⟨q, r, hparts, hcurrent, hclosed⟩ := exists_of_parse h
  obtain ⟨q', r', hparts', hcurrent', hclosed'⟩ := exists_of_parse h'
  obtain ⟨e', he⟩ := exists_leadsTo_current q.branches q.items
  obtain ⟨rfl, m, rfl⟩ := he q rfl rfl e r hcurrent
  have hlength : (opening ++ s ++ closing).length = s.length + 4 + 2 := by
    simp [opening, closing]
  rw [hlength, List.append_assoc] at hparts'
  obtain ⟨p, hin, hparts'⟩ : ∃ p, Inside { whole := s } p ∧
      readParts (s.length + 2 + 2) (s ++ closing) p = .ok ((), q') :=
    exists_inside_of_opening hparts'
  rcases readParts_closing (Nat.le_refl _) (Nat.le_add_right _ _) hin hparts hparts' with
    ⟨q₁, n, hin₁, hrest⟩ | hopen
  · -- the closing ends the outer group and adds the anchor at the end
    obtain ⟨hbranches, hitems, -⟩ := exists_of_closing hin₁ hclosed he hrest
    obtain ⟨rfl, -⟩ := leadsTo_current_single hbranches w r' hcurrent'
    rw [hitems, pushed_asLiteral, branchTree_anchors]
    rfl
  · -- the closing has been read as a part of a quotation
    obtain ⟨w', hw⟩ := exists_leadsTo_current q'.branches q'.items
    obtain ⟨-, m', rfl⟩ := hw q' rfl rfl w r' hcurrent'
    exact absurd hclosed' hopen

end ReturnAudit.Regex
