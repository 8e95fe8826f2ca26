import ReturnAudit.Proofs.Regex.Language

/-!
# Searches find what expressions match

While a text is read the marks of an expression tell which of its characters have just been read by
some match. For this every part of the expression has positions at which it may be entered: those
where what stands before it, or an earlier copy of itself, may end. The marks are right when a
character is marked exactly if the part was entered right before it, and reading the next character
keeps them right. So a search finds a match at every position at which one ends, and nowhere else.
-/

namespace ReturnAudit.Regex

variable {text : List Nat} {k : Nat}

/-- Relations that lead forward lead forward many times in a row. -/
theorem times_le {r : Span} (hr : ∀ i j, r i j → i ≤ j) (n : Nat) {i j : Nat}
    (h : Times r n i j) : i ≤ j := by
  induction n generalizing i with
  | zero => exact le_of_eq h
  | succ n ih =>
    obtain ⟨m, him, hmj⟩ := h
    exact (hr i m him).trans (ih hmj)

mutual

/-- No match ends before it starts. -/
theorem Marked.le_of_spans : ∀ (m : Marked) {i j : Nat}, m.Spans text i j → i ≤ j
  | .char _ _, i, _, h => h.1 ▸ Nat.le_succ i
  | .assert _, _, _, h => le_of_eq h.1
  | .sequence items, _, _, h => Marked.le_of_spansInTurn items h
  | .choice branches, _, _, h => Marked.le_of_spansAny branches h
  | .many _ body, _, _, ⟨n, _, h⟩ => times_le (fun _ _ h => Marked.le_of_spans body h) n h

/-- What expressions match in turn ends no earlier than it begins. -/
theorem Marked.le_of_spansInTurn :
    ∀ (l : List Marked) {i j : Nat}, Marked.SpansInTurn text l i j → i ≤ j
  | [], _, _, h => le_of_eq h
  | e :: rest, _, _, ⟨_, he, hrest⟩ =>
    (Marked.le_of_spans e he).trans (Marked.le_of_spansInTurn rest hrest)

/-- What one of several expressions matches ends no earlier than it begins. -/
theorem Marked.le_of_spansAny :
    ∀ (l : List Marked) {i j : Nat}, Marked.SpansAny text l i j → i ≤ j
  | [], _, _, h => h.elim
  | e :: _, _, _, .inl h => Marked.le_of_spans e h
  | _ :: rest, _, _, .inr h => Marked.le_of_spansAny rest h

end

mutual

/-- Marks do not change what an expression matches. -/
theorem Marked.spans_read (gap : Gap) (point : Nat) :
    ∀ (m : Marked) (enter : Bool), (m.read gap point enter).Spans text = m.Spans text
  | .char _ _, _ => rfl
  | .assert _, _ => rfl
  | .sequence items, enter => Marked.spansInTurn_readInTurn gap point items enter
  | .choice branches, enter => Marked.spansAny_readEach gap point branches enter
  | .many atLeastOnce body, enter => by
    rw [Marked.read, Marked.Spans, Marked.Spans, Marked.spans_read gap point body]

/-- Reading a character moves marks and keeps what expressions match in turn. -/
theorem Marked.spansInTurn_readInTurn (gap : Gap) (point : Nat) :
    ∀ (l : List Marked) (enter : Bool),
      Marked.SpansInTurn text (Marked.readInTurn gap point enter l) = Marked.SpansInTurn text l
  | [], _ => rfl
  | e :: rest, enter => by
    rw [Marked.readInTurn, Marked.SpansInTurn, Marked.SpansInTurn, Marked.spans_read gap point e,
      Marked.spansInTurn_readInTurn gap point rest]

/-- Reading a character moves marks and keeps what alternatives match. -/
theorem Marked.spansAny_readEach (gap : Gap) (point : Nat) :
    ∀ (l : List Marked) (enter : Bool),
      Marked.SpansAny text (Marked.readEach gap point enter l) = Marked.SpansAny text l
  | [], _ => rfl
  | e :: rest, enter => by
    rw [Marked.readEach, Marked.SpansAny, Marked.SpansAny, Marked.spans_read gap point e,
      Marked.spansAny_readEach gap point rest]

end

/-- The positions at which what follows an expression may be entered. -/
def after (entry : Nat → Prop) (r : Span) : Nat → Prop :=
  fun j => ∃ i, entry i ∧ r i j

mutual

/-- Whether the marks are right at position `k` of a text, if a match may be entered at certain
positions. -/
def Marked.Sound (text : List Nat) (k : Nat) (entry : Nat → Prop) : Marked → Prop
  | .char read set => read = true ↔ after entry (CharAt text set) k
  | .assert _ => True
  | .sequence items => Marked.SoundInTurn text k entry items
  | .choice branches => Marked.SoundEach text k entry branches
  | .many _ body =>
    body.Sound text k (after entry fun i j => ∃ n, Times (body.Spans text) n i j)

/-- Whether the marks of expressions one after another are right. -/
def Marked.SoundInTurn (text : List Nat) (k : Nat) (entry : Nat → Prop) : List Marked → Prop
  | [] => True
  | e :: rest => e.Sound text k entry ∧
    Marked.SoundInTurn text k (after entry (e.Spans text)) rest

/-- Whether the marks of alternatives are right. -/
def Marked.SoundEach (text : List Nat) (k : Nat) (entry : Nat → Prop) : List Marked → Prop
  | [] => True
  | e :: rest => e.Sound text k entry ∧ Marked.SoundEach text k entry rest

end

/-- Whether a match has been entered at a position up to `k`, where it is entered if `enter`. -/
def Entered (k : Nat) (entry : Nat → Prop) (enter : Bool) (i : Nat) : Prop :=
  (i < k ∧ entry i) ∨ (i = k ∧ enter = true)

section

variable {entry : Nat → Prop} {enter : Bool} {r s : Span}

/-- Where matches that have been entered may end, and another may follow. -/
theorem after_entered_then (hr : ∀ i j, r i j → i ≤ j) (hs : ∀ i j, s i j → i ≤ j)
    {enter' : Bool} (h : enter' = true ↔ after (Entered k entry enter) r k) :
    after (Entered k (after entry r) enter') s k ↔ after (Entered k entry enter) (Then r s) k := by
  constructor
  · rintro ⟨j, ⟨hj, i, hi, hij⟩ | ⟨rfl, henter⟩, hjk⟩
    · exact ⟨i, .inl ⟨(hr i j hij).trans_lt hj, hi⟩, j, hij, hjk⟩
    · obtain ⟨i, hi, hij⟩ := h.mp henter
      exact ⟨i, hi, j, hij, hjk⟩
  · rintro ⟨i, hi, j, hij, hjk⟩
    rcases (hs j k hjk).lt_or_eq with hj | rfl
    · have hlt : i < k := (hr i j hij).trans_lt hj
      obtain ⟨-, hentry⟩ := hi.resolve_right fun heq => hlt.ne heq.1
      exact ⟨j, .inl ⟨hj, i, hentry, hij⟩, hjk⟩
    · exact ⟨j, .inr ⟨rfl, h.mpr ⟨i, hi, hij⟩⟩, hjk⟩

/-- Where copies of an expression may end, of which the last was entered behind the others. -/
theorem after_entered_times (hr : ∀ i j, r i j → i ≤ j) :
    after (Entered k (after entry fun i j => ∃ n, Times r n i j) enter) r k ↔
      after (Entered k entry enter) (fun i j => ∃ n, 0 < n ∧ Times r n i j) k := by
  constructor
  · rintro ⟨j, ⟨hj, i, hi, n, hn⟩ | ⟨rfl, henter⟩, hjk⟩
    · refine ⟨i, .inl ⟨(times_le hr n hn).trans_lt hj, hi⟩, n + 1, Nat.succ_pos n, ?_⟩
      rw [times_succ_eq]
      exact ⟨j, hn, hjk⟩
    · exact ⟨j, .inr ⟨rfl, henter⟩, 1, Nat.one_pos, j, hjk, rfl⟩
  · rintro ⟨i, hi, n, hpos, hn⟩
    -- the last copies may be empty, so the one that came to `k` is looked for from the end
    induction n with
    | zero => exact absurd hpos (lt_irrefl 0)
    | succ n ih =>
      rw [times_succ_eq] at hn
      obtain ⟨j, hij, hjk⟩ := hn
      rcases (hr j k hjk).lt_or_eq with hj | rfl
      · have hlt : i < k := (times_le hr n hij).trans_lt hj
        obtain ⟨-, hentry⟩ := hi.resolve_right fun heq => hlt.ne heq.1
        exact ⟨j, .inl ⟨hj, i, hentry, n, hij⟩, hjk⟩
      · rcases Nat.eq_zero_or_pos n with rfl | hn
        · obtain rfl : i = j := hij
          obtain ⟨-, henter⟩ := hi.resolve_left fun hlt => lt_irrefl _ hlt.1
          exact ⟨i, .inr ⟨rfl, henter⟩, hjk⟩
        · exact ih hn hij

/-- A position at which a match may be entered counts as one where it is. -/
theorem after_entered (hr : ∀ i j, r i j → i ≤ j) (h : enter = true ↔ entry k) :
    after (Entered k entry enter) r k ↔ after entry r k := by
  constructor
  · rintro ⟨i, ⟨-, hi⟩ | ⟨rfl, henter⟩, hik⟩
    · exact ⟨i, hi, hik⟩
    · exact ⟨i, h.mp henter, hik⟩
  · rintro ⟨i, hi, hik⟩
    rcases (hr i k hik).lt_or_eq with hlt | rfl
    · exact ⟨i, .inl ⟨hlt, hi⟩, hik⟩
    · exact ⟨i, .inr ⟨rfl, h.mpr hi⟩, hik⟩

/-- A choice ends where one of its branches does. -/
theorem after_or {r s : Span} : after entry (fun i j => r i j ∨ s i j) k ↔
    after entry r k ∨ after entry s k := by
  simp only [after, and_or_left, exists_or]

end

mutual

/-- An expression with right marks says where its matches end. -/
theorem Marked.leaves_iff : ∀ (m : Marked) {entry : Nat → Prop} {enter : Bool},
    m.Sound text k entry →
      (m.leaves (gapAt text k) enter = true ↔ after (Entered k entry enter) (m.Spans text) k)
  | .char read set, entry, enter, h => by
    rw [Marked.leaves, h.eq]
    refine exists_congr fun i => and_congr_left fun hik => ?_
    have hlt : i < k := hik.1 ▸ Nat.lt_succ_self i
    simp [Entered, hlt, hlt.ne]
  | .assert condition, entry, enter, _ => by
    simp only [Marked.leaves, Marked.Spans, Bool.and_eq_true]
    constructor
    · rintro ⟨henter, hholds⟩
      exact ⟨k, .inr ⟨rfl, henter⟩, rfl, hholds⟩
    · rintro ⟨i, hi, rfl, hholds⟩
      obtain ⟨-, henter⟩ := hi.resolve_left fun hlt => lt_irrefl _ hlt.1
      exact ⟨henter, hholds⟩
  | .sequence items, _, _, h => Marked.leavesAll_iff items h
  | .choice branches, _, _, h => Marked.leavesAny_iff branches h
  | .many atLeastOnce body, entry, enter, h => by
    have hle : ∀ i j, body.Spans text i j → i ≤ j := fun _ _ => Marked.le_of_spans body
    rw [Marked.leaves, Bool.or_eq_true, Marked.leaves_iff body h, after_entered_times hle,
      Bool.and_eq_true, Bool.not_eq_true', Marked.Spans]
    constructor
    · rintro (⟨henter, hleast⟩ | ⟨i, hi, n, hpos, hn⟩)
      · exact ⟨k, .inr ⟨rfl, henter⟩, 0, by simp [hleast], rfl⟩
      · exact ⟨i, hi, n, fun _ => hpos, hn⟩
    · rintro ⟨i, hi, n, hleast, hn⟩
      rcases Nat.eq_zero_or_pos n with rfl | hpos
      · obtain rfl : i = k := hn
        obtain ⟨-, henter⟩ := hi.resolve_left fun hlt => lt_irrefl _ hlt.1
        exact .inl ⟨henter, Bool.eq_false_iff.mpr fun h => lt_irrefl 0 (hleast h)⟩
      · exact .inr ⟨i, hi, n, hpos, hn⟩

/-- Expressions in turn are left exactly where a match of them all that has been entered ends. -/
theorem Marked.leavesAll_iff : ∀ (l : List Marked) {entry : Nat → Prop} {enter : Bool},
    Marked.SoundInTurn text k entry l →
      (Marked.leavesAll (gapAt text k) enter l = true ↔
        after (Entered k entry enter) (Marked.SpansInTurn text l) k)
  | [], entry, enter, _ => by
    rw [Marked.leavesAll, Marked.SpansInTurn]
    constructor
    · exact fun henter => ⟨k, .inr ⟨rfl, henter⟩, rfl⟩
    · rintro ⟨i, hi, rfl⟩
      exact (hi.resolve_left fun hlt => lt_irrefl _ hlt.1).2
  | e :: rest, entry, enter, h => by
    rw [Marked.leavesAll, Marked.leavesAll_iff rest h.2, Marked.SpansInTurn]
    exact after_entered_then (fun _ _ => Marked.le_of_spans e)
      (fun _ _ => Marked.le_of_spansInTurn rest) (Marked.leaves_iff e h.1)

/-- Alternatives are left exactly where a match of one of them that has been entered ends. -/
theorem Marked.leavesAny_iff : ∀ (l : List Marked) {entry : Nat → Prop} {enter : Bool},
    Marked.SoundEach text k entry l →
      (Marked.leavesAny (gapAt text k) enter l = true ↔
        after (Entered k entry enter) (Marked.SpansAny text l) k)
  | [], entry, enter, _ => by simp [Marked.leavesAny, Marked.SpansAny, after]
  | e :: rest, entry, enter, h => by
    rw [Marked.leavesAny, Bool.or_eq_true, Marked.leaves_iff e h.1, Marked.leavesAny_iff rest h.2,
      Marked.SpansAny, after_or]

end

mutual

/-- Reading the next character of a text keeps the marks right. -/
theorem Marked.sound_read {point : Nat} (hpoint : text[k]? = some point) :
    ∀ (m : Marked) {entry : Nat → Prop} {enter : Bool}, m.Sound text k entry →
      (enter = true ↔ entry k) → (m.read (gapAt text k) point enter).Sound text (k + 1) entry
  | .char read set, entry, enter, _, henter => by
    rw [Marked.read, Marked.Sound, Bool.and_eq_true, henter]
    constructor
    · rintro ⟨hentry, hpt⟩
      exact ⟨k, hentry, rfl, point, hpoint, hpt⟩
    · rintro ⟨i, hentry, hk, point', hpoint', hpt⟩
      obtain rfl : k = i := Nat.succ.inj hk
      rw [hpoint] at hpoint'
      cases hpoint'
      exact ⟨hentry, hpt⟩
  | .assert _, _, _, _, _ => trivial
  | .sequence items, _, _, h, henter => Marked.sound_readInTurn hpoint items h henter
  | .choice branches, _, _, h, henter => Marked.sound_readEach hpoint branches h henter
  | .many atLeastOnce body, entry, enter, h, henter => by
    have hle : ∀ i j, body.Spans text i j → i ≤ j := fun _ _ => Marked.le_of_spans body
    -- a copy is entered where the repetition is, or where an earlier copy has just ended
    have hbody : (enter || body.leaves (gapAt text k) enter) = true ↔
        after entry (fun i j => ∃ n, Times (body.Spans text) n i j) k := by
      rw [Bool.or_eq_true, Marked.leaves_iff body h, after_entered_times hle,
        after_entered (fun i j ⟨n, _, hn⟩ => times_le hle n hn) henter]
      constructor
      · rintro (henter' | ⟨i, hi, n, -, hn⟩)
        · exact ⟨k, henter.mp henter', 0, rfl⟩
        · exact ⟨i, hi, n, hn⟩
      · rintro ⟨i, hi, n, hn⟩
        rcases Nat.eq_zero_or_pos n with rfl | hpos
        · obtain rfl : i = k := hn
          exact .inl (henter.mpr hi)
        · exact .inr ⟨i, hi, n, hpos, hn⟩
    rw [Marked.read, Marked.Sound, Marked.spans_read]
    exact Marked.sound_read hpoint body h hbody

/-- Reading a character keeps the marks of expressions one after another right. -/
theorem Marked.sound_readInTurn {point : Nat} (hpoint : text[k]? = some point) :
    ∀ (l : List Marked) {entry : Nat → Prop} {enter : Bool}, Marked.SoundInTurn text k entry l →
      (enter = true ↔ entry k) →
        Marked.SoundInTurn text (k + 1) entry (Marked.readInTurn (gapAt text k) point enter l)
  | [], _, _, _, _ => trivial
  | e :: rest, entry, enter, h, henter => by
    rw [Marked.readInTurn, Marked.SoundInTurn, Marked.spans_read]
    refine ⟨Marked.sound_read hpoint e h.1 henter, Marked.sound_readInTurn hpoint rest h.2 ?_⟩
    rw [Marked.leaves_iff e h.1, after_entered (fun _ _ => Marked.le_of_spans e) henter]

/-- Reading a character keeps the marks of alternatives right. -/
theorem Marked.sound_readEach {point : Nat} (hpoint : text[k]? = some point) :
    ∀ (l : List Marked) {entry : Nat → Prop} {enter : Bool}, Marked.SoundEach text k entry l →
      (enter = true ↔ entry k) →
        Marked.SoundEach text (k + 1) entry (Marked.readEach (gapAt text k) point enter l)
  | [], _, _, _, _ => trivial
  | e :: rest, _, _, h, henter =>
    ⟨Marked.sound_read hpoint e h.1 henter, Marked.sound_readEach hpoint rest h.2 henter⟩

end

/-- Before a text is read the marks of expressions one after another are right if those of each are,
wherever it may be entered. -/
theorem Marked.soundInTurn_of_forall {l : List Marked}
    (h : ∀ m ∈ l, ∀ entry, m.Sound text k entry) (entry : Nat → Prop) :
    Marked.SoundInTurn text k entry l := by
  induction l generalizing entry with
  | nil => trivial
  | cons m l ih =>
    exact ⟨h m List.mem_cons_self entry,
      ih (fun m' hm' => h m' (List.mem_cons_of_mem _ hm')) _⟩

/-- Before a text is read a character that is not marked is marked rightly. -/
theorem Marked.sound_char (set : CharSet) (entry : Nat → Prop) :
    (Marked.char false set).Sound text 0 entry := by
  simp [Marked.Sound, after, CharAt]

/-- Before a text is read the marks of an optional expression are right if its own are. -/
theorem Marked.sound_optional {m : Marked} (h : ∀ entry, m.Sound text 0 entry)
    (entry : Nat → Prop) : (Marked.optional m).Sound text 0 entry :=
  ⟨h entry, trivial, trivial⟩

mutual

/-- Before a text is read no character is marked. -/
theorem Expr.sound_unmarked : ∀ (e : Expr) (entry : Nat → Prop), e.unmarked.Sound text 0 entry
  | .empty, _ => trivial
  | .literal ignoreCase points, entry => by
    refine Marked.soundInTurn_of_forall (fun m hm => ?_) entry
    obtain ⟨point, -, rfl⟩ := List.mem_map.mp hm
    exact Marked.sound_char _
  | .chars set, entry => Marked.sound_char _ entry
  | .dot newlines, entry => Marked.sound_char _ entry
  | .assert _, _ => trivial
  | .sequence items, entry => Expr.soundInTurn_unmarkedAll items entry
  | .choice branches, entry => Expr.soundEach_unmarkedAll branches entry
  | .many _ body, _ => Expr.sound_unmarked body _
  | .optional body, entry => Marked.sound_optional (Expr.sound_unmarked body) entry
  | .group body, entry => Expr.sound_unmarked body entry
  | .counted _ least none body, entry => by
    refine Marked.soundInTurn_of_forall (fun m hm => ?_) entry
    rcases List.mem_append.mp hm with hm | hm
    · rw [List.eq_of_mem_replicate hm]
      exact Expr.sound_unmarked body
    · rw [List.mem_singleton.mp hm]
      exact fun entry => Expr.sound_unmarked body _
  | .counted _ least (some most) body, entry => by
    refine Marked.soundInTurn_of_forall (fun m hm => ?_) entry
    rcases List.mem_append.mp hm with hm | hm
    · rw [List.eq_of_mem_replicate hm]
      exact Expr.sound_unmarked body
    · rw [List.eq_of_mem_replicate hm]
      exact Marked.sound_optional (Expr.sound_unmarked body)

/-- Before a text is read no character of expressions one after another is marked. -/
theorem Expr.soundInTurn_unmarkedAll : ∀ (l : List Expr) (entry : Nat → Prop),
    Marked.SoundInTurn text 0 entry (Expr.unmarkedAll l)
  | [], _ => trivial
  | e :: rest, entry => ⟨Expr.sound_unmarked e entry, Expr.soundInTurn_unmarkedAll rest _⟩

/-- Before a text is read no character of alternatives is marked. -/
theorem Expr.soundEach_unmarkedAll : ∀ (l : List Expr) (entry : Nat → Prop),
    Marked.SoundEach text 0 entry (Expr.unmarkedAll l)
  | [], _ => trivial
  | e :: rest, entry => ⟨Expr.sound_unmarked e entry, Expr.soundEach_unmarkedAll rest entry⟩

end

/-- Where a match may be entered anywhere, it may end where any match ends. -/
theorem Marked.leaves_anywhere_iff {m : Marked} (h : m.Sound text k fun _ => True) :
    m.leaves (gapAt text k) true = true ↔ ∃ i, m.Spans text i k := by
  rw [Marked.leaves_iff m h, after_entered (fun _ _ => Marked.le_of_spans m) (by simp)]
  simp only [after, true_and]

/-- From a position with right marks on, a search finds a match if one ends there or later. -/
theorem Marked.isFoundIn_iff {m : Marked} {rest : List Nat} (h : m.Sound text k fun _ => True)
    (hrest : text.drop k = rest) (hk : k ≤ text.length) :
    m.isFoundIn (gapAt text k).1 rest = true ↔
      ∃ i j, k ≤ j ∧ j ≤ text.length ∧ m.Spans text i j := by
  induction rest generalizing k m with
  | nil =>
    obtain rfl : k = text.length := hk.antisymm (List.drop_eq_nil_iff.mp hrest)
    have hgap : gapAt text text.length = ((gapAt text text.length).1, none) := by
      simp [gapAt]
    rw [Marked.isFoundIn, ← hgap, Marked.leaves_anywhere_iff h]
    constructor
    · rintro ⟨i, hi⟩
      exact ⟨i, _, le_refl _, le_refl _, hi⟩
    · rintro ⟨i, j, hj, hj', hi⟩
      obtain rfl := hj.antisymm hj'
      exact ⟨i, hi⟩
  | cons point rest ih =>
    have hpoint : text[k]? = some point := by
      rw [← List.head?_drop, hrest, List.head?_cons]
    have hlt : k < text.length := (List.getElem?_eq_some_iff.mp hpoint).1
    have hgap : gapAt text k = ((gapAt text k).1, some point) := by
      simp [gapAt, hpoint]
    have hnext : (gapAt text (k + 1)).1 = some point := by
      simp [gapAt, hpoint]
    have hread : (m.read (gapAt text k) point true).Sound text (k + 1) fun _ => True :=
      Marked.sound_read hpoint m h (by simp)
    have hrest' : text.drop (k + 1) = rest := by
      rw [← List.tail_drop, hrest, List.tail_cons]
    have hlater : (m.read (gapAt text k) point true).isFoundIn (some point) rest = true ↔
        ∃ i j, k + 1 ≤ j ∧ j ≤ text.length ∧ m.Spans text i j := by
      have hnow := ih hread hrest' hlt
      rwa [hnext, Marked.spans_read] at hnow
    rw [Marked.isFoundIn, ← hgap, Bool.or_eq_true, Marked.leaves_anywhere_iff h, hlater]
    constructor
    · rintro (⟨i, hi⟩ | ⟨i, j, hj, hj', hi⟩)
      · exact ⟨i, k, le_refl k, hk, hi⟩
      · exact ⟨i, j, (Nat.le_succ k).trans hj, hj', hi⟩
    · rintro ⟨i, j, hj, hj', hi⟩
      rcases hj.lt_or_eq with hj | rfl
      · exact .inr ⟨i, j, hj, hj', hi⟩
      · exact .inl ⟨i, hi⟩

/-- An expression is found in a text when it matches what lies between two of its positions. -/
theorem Expr.isFoundIn_iff (e : Expr) (text : Bytes) :
    e.isFoundIn text = true ↔
      ∃ i j, j ≤ (Utf8.points text).length ∧ e.Spans (Utf8.points text) i j := by
  have hsound : e.unmarked.Sound (Utf8.points text) 0 fun _ => True := Expr.sound_unmarked e _
  have hfound := Marked.isFoundIn_iff hsound List.drop_zero (Nat.zero_le _)
  rw [Expr.spans_unmarked] at hfound
  refine hfound.trans (exists_congr fun i => exists_congr fun j => ?_)
  exact and_iff_right (Nat.zero_le j)

end ReturnAudit.Regex
