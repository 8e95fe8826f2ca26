import ReturnAudit.Regex.Search
import Mathlib.Data.Nat.Basic
import Mathlib.Order.Basic

/-!
# What an expression matches

An expression relates two positions of a text when it matches what lies between them. The relation
is read off the tree of the expression: one item after another for a sequence, one of the branches
for a choice, one copy after another for a repetition. The tree that a search works on is made up of
fewer shapes and relates the same positions.
-/

namespace ReturnAudit.Regex

/-- A relation between two positions of a text. -/
abbrev Span := Nat → Nat → Prop

/-- The neighbours of a position. -/
def gapAt (text : List Nat) (i : Nat) : Gap :=
  (if i = 0 then none else text[i - 1]?, text[i]?)

/-- One character of a set. -/
def CharAt (text : List Nat) (set : CharSet) : Span :=
  fun i j => j = i + 1 ∧ ∃ point, text[i]? = some point ∧ set.has point = true

/-- No character, at a position where a condition holds. -/
def HoldsAt (text : List Nat) (condition : Assertion) : Span :=
  fun i j => i = j ∧ condition.holds (gapAt text i) = true

/-- One relation after another. -/
def Then (r s : Span) : Span :=
  fun i j => ∃ m, r i m ∧ s m j

/-- A relation so many times in a row. -/
def Times (r : Span) : Nat → Span
  | 0 => Eq
  | n + 1 => Then r (Times r n)

mutual

/-- Whether an expression matches what lies between two positions of a text. -/
def Expr.Spans (text : List Nat) : Expr → Span
  | .empty => Eq
  | .literal ignoreCase points =>
    points.foldr (fun point => Then (CharAt text (Expr.literalSet ignoreCase point))) Eq
  | .chars set => CharAt text set
  | .dot newlines => CharAt text (if newlines then .all else .notNewline)
  | .assert condition => HoldsAt text condition
  | .sequence items => Expr.SpansInTurn text items
  | .choice branches => Expr.SpansAny text branches
  | .many atLeastOnce body =>
    fun i j => ∃ n, (atLeastOnce = true → 0 < n) ∧ Times (Expr.Spans text body) n i j
  | .optional body => fun i j => i = j ∨ Expr.Spans text body i j
  | .counted _ least most body =>
    fun i j => ∃ more, (∀ m ∈ most, more ≤ m - least) ∧
      Times (Expr.Spans text body) (least + more) i j
  | .group body => Expr.Spans text body

/-- Whether expressions one after another match what lies between two positions. -/
def Expr.SpansInTurn (text : List Nat) : List Expr → Span
  | [] => Eq
  | e :: rest => Then (Expr.Spans text e) (Expr.SpansInTurn text rest)

/-- Whether one of several expressions matches what lies between two positions. -/
def Expr.SpansAny (text : List Nat) : List Expr → Span
  | [] => fun _ _ => False
  | e :: rest => fun i j => Expr.Spans text e i j ∨ Expr.SpansAny text rest i j

end

/-- Whether an expression matches the whole of a text. -/
def Expr.MatchesWhole (e : Expr) (text : Bytes) : Prop :=
  e.Spans (Utf8.points text) 0 (Utf8.points text).length

mutual

/-- Whether an expression in the course of a search matches what lies between two positions. -/
def Marked.Spans (text : List Nat) : Marked → Span
  | .char _ set => CharAt text set
  | .assert condition => HoldsAt text condition
  | .sequence items => Marked.SpansInTurn text items
  | .choice branches => Marked.SpansAny text branches
  | .many atLeastOnce body =>
    fun i j => ∃ n, (atLeastOnce = true → 0 < n) ∧ Times (Marked.Spans text body) n i j

/-- Whether expressions one after another match what lies between two positions. -/
def Marked.SpansInTurn (text : List Nat) : List Marked → Span
  | [] => Eq
  | e :: rest => Then (Marked.Spans text e) (Marked.SpansInTurn text rest)

/-- Whether one of several expressions matches what lies between two positions. -/
def Marked.SpansAny (text : List Nat) : List Marked → Span
  | [] => fun _ _ => False
  | e :: rest => fun i j => Marked.Spans text e i j ∨ Marked.SpansAny text rest i j

end

section

variable {r s t : Span} {i j : Nat} {text : List Nat}

/-- One relation after another may be grouped in any way. -/
theorem then_assoc : Then (Then r s) t = Then r (Then s t) := by
  funext i j
  refine propext ⟨?_, ?_⟩
  · rintro ⟨m, ⟨k, hr, hs⟩, ht⟩
    exact ⟨k, hr, m, hs, ht⟩
  · rintro ⟨k, hr, m, hs, ht⟩
    exact ⟨m, ⟨k, hr, hs⟩, ht⟩

@[simp] theorem eq_then : Then Eq r = r := by
  funext i j
  simp [Then]

@[simp] theorem then_eq : Then r Eq = r := by
  funext i j
  simp [Then]

/-- Copies of a relation come in any order. -/
theorem times_succ_eq (r : Span) (n : Nat) : Times r (n + 1) = Then (Times r n) r := by
  induction n with
  | zero => simp [Times]
  | succ n ih =>
    calc Times r (n + 2) = Then r (Times r (n + 1)) := rfl
      _ = Then (Then r (Times r n)) r := by rw [ih, then_assoc]

/-- So many times and then so many more are as many times in all. -/
theorem times_add (r : Span) (m n : Nat) : Times r (m + n) = Then (Times r m) (Times r n) := by
  induction m with
  | zero => simp [Times]
  | succ m ih => rw [Nat.succ_add, Times, ih, ← then_assoc, Times]

/-- Two lists of expressions match in turn one after the other. -/
theorem Expr.spansInTurn_append (l l' : List Expr) :
    Expr.SpansInTurn text (l ++ l') =
      Then (Expr.SpansInTurn text l) (Expr.SpansInTurn text l') := by
  induction l with
  | nil => simp [Expr.SpansInTurn]
  | cons e l ih => simp only [List.cons_append, Expr.SpansInTurn, ih, then_assoc]

/-- Two lists of marked expressions match in turn one after the other. -/
theorem Marked.spansInTurn_append (l l' : List Marked) :
    Marked.SpansInTurn text (l ++ l') =
      Then (Marked.SpansInTurn text l) (Marked.SpansInTurn text l') := by
  induction l with
  | nil => simp [Marked.SpansInTurn]
  | cons e l ih => simp only [List.cons_append, Marked.SpansInTurn, ih, then_assoc]

/-- Copies of an expression match in turn what it matches so many times in a row. -/
theorem Marked.spansInTurn_replicate (n : Nat) (e : Marked) :
    Marked.SpansInTurn text (List.replicate n e) = Times (e.Spans text) n := by
  induction n with
  | zero => rfl
  | succ n ih => rw [List.replicate_succ, Marked.SpansInTurn, ih, Times]

/-- An optional expression matches nothing or what it is made of. -/
theorem Marked.spans_optional (e : Marked) (i j : Nat) :
    (Marked.optional e).Spans text i j ↔ i = j ∨ e.Spans text i j := by
  simp only [Marked.optional, Marked.Spans, Marked.SpansAny, Marked.SpansInTurn, or_false]
  exact or_comm

/-- Copies that may be left out. -/
theorem Marked.times_optional (e : Marked) (n : Nat) (i j : Nat) :
    Times ((Marked.optional e).Spans text) n i j ↔
      ∃ m ≤ n, Times (e.Spans text) m i j := by
  induction n generalizing i with
  | zero =>
    constructor
    · exact fun h => ⟨0, Nat.le_refl 0, h⟩
    · rintro ⟨m, hm, h⟩
      rwa [Nat.le_zero.mp hm] at h
  | succ n ih =>
    rw [Times]
    constructor
    · rintro ⟨k, hk, hrest⟩
      obtain ⟨m, hm, hmore⟩ := (ih k).mp hrest
      rcases (Marked.spans_optional e i k).mp hk with rfl | hk
      · exact ⟨m, Nat.le_succ_of_le hm, hmore⟩
      · exact ⟨m + 1, Nat.succ_le_succ hm, k, hk, hmore⟩
    · rintro ⟨m, hm, h⟩
      cases m with
      | zero =>
        refine ⟨i, (Marked.spans_optional e i i).mpr (.inl rfl), (ih i).mpr ?_⟩
        exact ⟨0, Nat.zero_le n, h⟩
      | succ m =>
        obtain ⟨k, hk, hrest⟩ := h
        refine ⟨k, (Marked.spans_optional e i k).mpr (.inr hk), (ih k).mpr ?_⟩
        exact ⟨m, Nat.le_of_succ_le_succ hm, hrest⟩

end

mutual

/-- The tree that a search works on matches what the expression matches. -/
theorem Expr.spans_unmarked (text : List Nat) : ∀ e : Expr, e.unmarked.Spans text = e.Spans text
  | .empty => rfl
  | .literal ignoreCase points => by
    rw [Expr.unmarked, Marked.Spans, Expr.Spans]
    induction points with
    | nil => rfl
    | cons point points ih => rw [List.map_cons, Marked.SpansInTurn, ih, List.foldr_cons]; rfl
  | .chars set => rfl
  | .dot newlines => rfl
  | .assert condition => rfl
  | .sequence items => Expr.spansInTurn_unmarkedAll text items
  | .choice branches => Expr.spansAny_unmarkedAll text branches
  | .many atLeastOnce body => by
    rw [Expr.unmarked, Marked.Spans, Expr.Spans, Expr.spans_unmarked text body]
  | .optional body => by
    funext i j
    rw [Expr.unmarked, Expr.Spans, ← Expr.spans_unmarked text body]
    exact propext (Marked.spans_optional _ i j)
  | .group body => Expr.spans_unmarked text body
  | .counted _ least none body => by
    rw [Expr.unmarked, Marked.Spans, Marked.spansInTurn_append, Marked.spansInTurn_replicate,
      Expr.Spans, ← Expr.spans_unmarked text body]
    simp only [Marked.SpansInTurn, then_eq, Marked.Spans]
    funext i j
    refine propext ⟨?_, ?_⟩
    · rintro ⟨k, hk, n, -, hn⟩
      refine ⟨n, by simp, ?_⟩
      rw [times_add]
      exact ⟨k, hk, hn⟩
    · rintro ⟨n, -, hn⟩
      rw [times_add] at hn
      obtain ⟨k, hk, hn⟩ := hn
      exact ⟨k, hk, n, by simp, hn⟩
  | .counted _ least (some most) body => by
    rw [Expr.unmarked, Marked.Spans, Marked.spansInTurn_append, Marked.spansInTurn_replicate,
      Marked.spansInTurn_replicate, Expr.Spans, ← Expr.spans_unmarked text body]
    funext i j
    refine propext ⟨?_, ?_⟩
    · rintro ⟨k, hk, hmore⟩
      obtain ⟨n, hn, hn'⟩ := (Marked.times_optional _ _ k j).mp hmore
      refine ⟨n, by simpa using hn, ?_⟩
      rw [times_add]
      exact ⟨k, hk, hn'⟩
    · rintro ⟨n, hn, hn'⟩
      rw [times_add] at hn'
      obtain ⟨k, hk, hmore⟩ := hn'
      exact ⟨k, hk, (Marked.times_optional _ _ k j).mpr ⟨n, hn _ rfl, hmore⟩⟩

/-- Before a search expressions in turn match what they match in the course of it. -/
theorem Expr.spansInTurn_unmarkedAll (text : List Nat) :
    ∀ l : List Expr, Marked.SpansInTurn text (Expr.unmarkedAll l) = Expr.SpansInTurn text l
  | [] => rfl
  | e :: rest => by
    rw [Expr.unmarkedAll, Marked.SpansInTurn, Expr.SpansInTurn, Expr.spans_unmarked text e,
      Expr.spansInTurn_unmarkedAll text rest]

/-- Before a search alternatives match what they match in the course of it. -/
theorem Expr.spansAny_unmarkedAll (text : List Nat) :
    ∀ l : List Expr, Marked.SpansAny text (Expr.unmarkedAll l) = Expr.SpansAny text l
  | [] => rfl
  | e :: rest => by
    rw [Expr.unmarkedAll, Marked.SpansAny, Expr.SpansAny, Expr.spans_unmarked text e,
      Expr.spansAny_unmarkedAll text rest]

end

end ReturnAudit.Regex
