import ReturnAudit.Proofs.Scenario.Matching

/-!
# The order of expected findings

Whether a comparison has nothing to report depends on the orders of both lists only through the
order of the findings at each key. There the first finding is held against the first, the second
against the second, and nobody looks for a partner that suits. So the same findings in another order
are accepted exactly when at each key they come in an order that suits, and always when the findings
of a key say the same.
-/

namespace ReturnAudit.ExpectedFinding

/-- Whether an actual finding has what is wanted, wherever something is stated. -/
def Suits (wanted actual : ExpectedFinding) : Prop :=
  (wanted.pattern = [] ∨ wanted.pattern = actual.pattern) ∧
    (wanted.priority = 0 ∨ wanted.priority = actual.priority) ∧
    (wanted.line = 0 ∨ wanted.line = actual.line)

/-- What is stated beyond the key. -/
def details (e : ExpectedFinding) : Bytes × Int × Int :=
  (e.pattern, e.priority, e.line)

/-- Whether nothing is left open. -/
def IsFull (e : ExpectedFinding) : Prop :=
  e.pattern ≠ [] ∧ e.priority ≠ 0 ∧ e.line ≠ 0

/-- A pair has no mismatch exactly when the actual finding suits the expected one. -/
theorem mismatches_eq_nil_iff (wanted actual : ExpectedFinding) :
    wanted.mismatches actual = [] ↔ wanted.Suits actual := by
  unfold mismatches Suits
  simp only [List.append_eq_nil_iff, ite_eq_left_iff, reduceCtorEq, imp_false, Decidable.not_not,
    Bool.or_eq_true, List.isEmpty_iff, decide_eq_true_eq, and_assoc]

/-- A finding suits one that states the same. -/
theorem suits_of_details {wanted actual : ExpectedFinding} (h : wanted.details = actual.details) :
    wanted.Suits actual := by
  simp only [details, Prod.mk.injEq] at h
  exact ⟨.inr h.1, .inr h.2.1, .inr h.2.2⟩

/-- A finding with nothing left open only suits those that say the same. -/
theorem IsFull.suits_iff {wanted actual : ExpectedFinding} (h : wanted.IsFull) :
    wanted.Suits actual ↔ wanted.details = actual.details := by
  obtain ⟨hpattern, hpriority, hline⟩ := h
  simp only [Suits, details, hpattern, hpriority, hline, false_or, Prod.mk.injEq]

/-- All pairs suit when at each key the findings suit those at the same place. -/
theorem Matched.pairs_suit_iff {expected actual : List ExpectedFinding} {m : Matching}
    (h : Matched expected actual m) :
    (m.pairs.flatMap fun p => p.1.mismatches p.2) = [] ↔
      ∀ k, ∀ p ∈ (atKey k expected).zip (atKey k actual), p.1.Suits p.2 := by
  simp only [List.flatMap_eq_nil_iff, mismatches_eq_nil_iff]
  constructor
  · intro hsuit k p hp
    rw [← (h.at_key k).2.1] at hp
    exact hsuit p (List.mem_filter.mp hp).1
  · intro hsuit p hp
    have hmem : p ∈ m.pairs.filter fun q => q.1.key = p.1.key :=
      List.mem_filter.mpr ⟨hp, by simp⟩
    rw [(h.at_key p.1.key).2.1] at hmem
    exact hsuit p.1.key p hmem

/-- A comparison has nothing to report exactly when at each key the findings of the two lists suit
each other one by one. -/
theorem compare_eq_nothing_iff (expected actual : List ExpectedFinding) :
    compare expected actual = {} ↔
      ∀ k, List.Forall₂ Suits (atKey k expected) (atKey k actual) := by
  obtain ⟨m, hm, hcompare⟩ := exists_compare_eq expected actual
  rw [hcompare, Comparison.mk.injEq, sort_texts_eq_nil_iff, sort_texts_eq_nil_iff, ← and_assoc,
    hm.nothing_over_iff, perm_keys_iff, hm.pairs_suit_iff, ← forall_and]
  refine forall_congr' fun k => ?_
  rw [List.forall₂_iff_zip]
  exact and_congr_right fun _ => ⟨fun hsuit a b hab => hsuit (a, b) hab, fun hsuit p hp => hsuit hp⟩

/-- Where nothing is left open, findings suit others one by one when they say the same one by
one. -/
theorem forall₂_suits_iff {l l' : List ExpectedFinding} (h : ∀ e ∈ l, e.IsFull) :
    List.Forall₂ Suits l l' ↔ l.map details = l'.map details := by
  rw [← List.forall₂_eq_eq_eq, List.forall₂_map_left_iff, List.forall₂_map_right_iff]
  induction l generalizing l' with
  | nil => simp
  | cons e l ih =>
    obtain ⟨he, hl⟩ := List.forall_mem_cons.mp h
    cases l' with
    | nil => simp
    | cons e' l' => rw [List.forall₂_cons, List.forall₂_cons, he.suits_iff, ih hl]

/-- When the actual findings are the expected ones in some order, nothing is missing or unexpected.
Mismatches are reported unless at each key the findings suit those at the same place; when nothing
is left open, unless the two orders show the same at each key. Where findings of one key say the
same, any order will do, and in any case only the orders at each key matter. -/
theorem compare_reordered {expected actual : List ExpectedFinding} (h : actual.Perm expected) :
    (compare expected actual).missing = [] ∧ (compare expected actual).unexpected = [] ∧
      ((compare expected actual).mismatched = [] ↔
        ∀ k, List.Forall₂ Suits (atKey k expected) (atKey k actual)) ∧
      ((∀ e ∈ expected, e.IsFull) → ((compare expected actual).mismatched = [] ↔
        ∀ k, (atKey k expected).map details = (atKey k actual).map details)) ∧
      ((∀ e ∈ expected, ∀ e' ∈ expected, e.key = e'.key → e.details = e'.details) →
        (compare expected actual).mismatched = []) ∧
      ∀ expected' actual' : List ExpectedFinding,
        (∀ k, atKey k expected' = atKey k expected) → (∀ k, atKey k actual' = atKey k actual) →
          (compare expected' actual' = {} ↔ compare expected actual = {}) := by
  obtain ⟨m, hm, hcompare⟩ := exists_compare_eq expected actual
  -- both sides have as many findings at each key, so all of them get a partner
  obtain ⟨hlost, hleft⟩ := hm.nothing_over_iff.mpr (h.symm.map key)
  have hmissing : (compare expected actual).missing = [] := by
    rw [hcompare, hlost]
    exact sort_texts_eq_nil_iff.mpr rfl
  have hunexpected : (compare expected actual).unexpected = [] := by
    rw [hcompare, hleft]
    exact sort_texts_eq_nil_iff.mpr rfl
  have hmismatched : (compare expected actual).mismatched = [] ↔
      ∀ k, List.Forall₂ Suits (atKey k expected) (atKey k actual) := by
    rw [← compare_eq_nothing_iff]
    constructor
    · intro hnone
      exact Comparison.mk.injEq .. ▸ ⟨hmissing, hunexpected, hnone⟩
    · intro hnothing
      rw [hnothing]
  have hlength : ∀ k, (atKey k expected).length = (atKey k actual).length :=
    perm_keys_iff.mp (h.symm.map key)
  refine ⟨hmissing, hunexpected, hmismatched, ?_, ?_, ?_⟩
  · intro hfull
    rw [hmismatched]
    refine forall_congr' fun k => ?_
    exact forall₂_suits_iff fun e he => hfull e (mem_atKey.mp he).1
  · intro hsame
    refine hmismatched.mpr fun k => List.forall₂_iff_zip.mpr ⟨hlength k, ?_⟩
    intro e e' hzip
    obtain ⟨he, he'⟩ := List.of_mem_zip hzip
    obtain ⟨hexpected, hkey⟩ := mem_atKey.mp he
    obtain ⟨hactual, hkey'⟩ := mem_atKey.mp he'
    exact suits_of_details (hsame e hexpected e' (h.mem_iff.mp hactual) (hkey.trans hkey'.symm))
  · intro expected' actual' hexpected hactual
    simp only [compare_eq_nothing_iff, hexpected, hactual]

/-- A dropped result of one call in one method, at a line. -/
private def trimAt (line : Int) : ExpectedFinding where
  pattern := "RV_RETURN_VALUE_IGNORED"
  className := "p.A"
  method := "run(Ljava/lang/String;)V"
  called := "java.lang.String.trim()Ljava/lang/String;"
  priority := 1
  line := line

/-- A dropped result of another call in that method. -/
private def deleteAt (line : Int) : ExpectedFinding :=
  { trimAt line with called := "java.io.File.delete()Z" }

/-- Findings of two keys may be mixed in any way, and equal ones may come twice. -/
theorem compare_reordered_mixed :
    [deleteAt 12, trimAt 11, trimAt 11].Perm [trimAt 11, deleteAt 12, trimAt 11] ∧
      (compare [trimAt 11, deleteAt 12, trimAt 11]
        [deleteAt 12, trimAt 11, trimAt 11]).mismatched = [] := by
  have hperm : [deleteAt 12, trimAt 11, trimAt 11].Perm [trimAt 11, deleteAt 12, trimAt 11] :=
    .swap ..
  have hsame : ∀ e ∈ [trimAt 11, deleteAt 12, trimAt 11],
      ∀ e' ∈ [trimAt 11, deleteAt 12, trimAt 11], e.key = e'.key → e.details = e'.details := by
    decide
  exact ⟨hperm, (compare_reordered hperm).2.2.2.2.1 hsame⟩

/-- Two findings of one key with nothing left open: expected in one order and made in the other,
they are reported as mismatches, though the two lists hold the same. -/
theorem compare_swapped :
    (trimAt 11).IsFull ∧ (trimAt 14).IsFull ∧
      [trimAt 11, trimAt 14].Perm [trimAt 14, trimAt 11] ∧
      (compare [trimAt 14, trimAt 11] [trimAt 11, trimAt 14]).mismatched ≠ [] ∧
      (compare [trimAt 11, trimAt 14] [trimAt 11, trimAt 14]).mismatched = [] := by
  refine ⟨⟨?_, ?_, ?_⟩, ⟨?_, ?_, ?_⟩, .swap .., ?_, ?_⟩ <;> decide

end ReturnAudit.ExpectedFinding
