import Mathlib.Data.List.DropRight
import Mathlib.Data.List.Zip
import ReturnAudit.Scenario.Expected
import ReturnAudit.Proofs.Text.ByteOrder

/-!
# Matching expected with actual findings

Expected findings take their partners one after the other, whatever their keys are, and yet the
findings of each key are matched by themselves: the first expected with the first actual one, the
second with the second, until one side has no more. So what is missing and what is unexpected are
the last findings of each key, as many as one side has more than the other.
-/

namespace ReturnAudit

/-- What is left without some first elements are the last ones. -/
theorem drop_eq_rtake {α : Type} (l : List α) (n : Nat) : l.drop n = l.rtake (l.length - n) := by
  rw [List.rtake]
  by_cases hn : n ≤ l.length
  · rw [Nat.sub_sub_self hn]
  · rw [List.drop_eq_nil_of_le (by omega), List.drop_eq_nil_of_le (by omega)]

namespace ExpectedFinding

/-- The findings of a list that have a key. -/
def atKey (k : Bytes) (l : List ExpectedFinding) : List ExpectedFinding :=
  l.filter fun e => e.key = k

section AtKey

variable {k : Bytes} {e : ExpectedFinding} {l l' : List ExpectedFinding}

/-- The findings at a key are those of the list that have it. -/
theorem mem_atKey : e ∈ atKey k l ↔ e ∈ l ∧ e.key = k := by
  rw [atKey, List.mem_filter, decide_eq_true_eq]

/-- The findings at a key of two lists are those of the first and then those of the second. -/
theorem atKey_append : atKey k (l ++ l') = atKey k l ++ atKey k l' :=
  List.filter_append ..

/-- A first finding that has the key stays the first. -/
theorem atKey_cons_of_eq (h : e.key = k) : atKey k (e :: l) = e :: atKey k l :=
  List.filter_cons_of_pos (by simpa using h)

/-- A first finding that has another key is left out. -/
theorem atKey_cons_of_ne (h : e.key ≠ k) : atKey k (e :: l) = atKey k l :=
  List.filter_cons_of_neg (by simpa using h)

/-- There are no findings at a key exactly when none has it. -/
theorem atKey_eq_nil_iff : atKey k l = [] ↔ ∀ e ∈ l, e.key ≠ k := by
  simp only [atKey, List.filter_eq_nil_iff, decide_eq_true_eq, ne_eq]

/-- A list is empty exactly when it has no findings at any key. -/
theorem eq_nil_iff_atKey : l = [] ↔ ∀ k, atKey k l = [] := by
  constructor
  · rintro rfl k
    rfl
  · intro h
    refine List.eq_nil_iff_forall_not_mem.mpr fun e he => ?_
    exact atKey_eq_nil_iff.mp (h e.key) e he rfl

/-- Two lists have the same keys equally often when they have equally many findings at each key. -/
theorem perm_keys_iff :
    (l.map key).Perm (l'.map key) ↔ ∀ k, (atKey k l).length = (atKey k l').length := by
  have hcount : ∀ (k : Bytes) (l : List ExpectedFinding),
      (l.map key).count k = (atKey k l).length := by
    intro k l
    rw [atKey, ← List.countP_eq_length_filter, List.count_eq_countP, List.countP_map]
    exact List.countP_congr fun e _ => by simp
  simp only [List.perm_iff_count, hcount]

end AtKey

/-- What comes of matching expected with actual findings. -/
structure Matching where
  /-- The expected findings without a partner. -/
  lost : List ExpectedFinding
  /-- The expected findings with their partners. -/
  pairs : List (ExpectedFinding × ExpectedFinding)
  /-- The actual findings that nobody took. -/
  left : List ExpectedFinding

/-- The texts that report on a matching. -/
def Matching.report (m : Matching) : Comparison where
  missing := m.lost.map text
  unexpected := m.left.map text
  mismatched := m.pairs.flatMap fun p => p.1.mismatches p.2

/-- How the expected findings are matched in order: each takes the first actual finding with its key
that is still there. -/
inductive Matched : List ExpectedFinding → List ExpectedFinding → Matching → Prop
  /-- All expected findings are through. -/
  | done (actual : List ExpectedFinding) : Matched [] actual ⟨[], [], actual⟩
  /-- Nothing has the key of the next expected finding. -/
  | lost {wanted : ExpectedFinding} {expected actual : List ExpectedFinding} {m : Matching}
      (hnone : atKey wanted.key actual = []) (rest : Matched expected actual m) :
      Matched (wanted :: expected) actual { m with lost := wanted :: m.lost }
  /-- The next expected finding takes the first actual one with its key. -/
  | paired {wanted found : ExpectedFinding} {expected before after : List ExpectedFinding}
      {m : Matching} (hkey : found.key = wanted.key) (hbefore : atKey wanted.key before = [])
      (rest : Matched expected (before ++ after) m) :
      Matched (wanted :: expected) (before ++ found :: after)
        { m with pairs := (wanted, found) :: m.pairs }

/-- The comparison reports on such a matching. -/
theorem exists_matched (expected actual : List ExpectedFinding) :
    ∃ m, Matched expected actual m ∧ matchAll expected actual = m.report := by
  induction expected generalizing actual with
  | nil => exact ⟨_, .done actual, rfl⟩
  | cons wanted expected ih =>
    cases hfind : actual.find? fun a => a.key = wanted.key with
    | none =>
      obtain ⟨m, hm, hreport⟩ := ih actual
      have hnone : atKey wanted.key actual = [] := by
        simpa [atKey_eq_nil_iff] using hfind
      refine ⟨_, .lost hnone hm, ?_⟩
      simp only [matchAll, hfind, hreport]
      rfl
    | some found =>
      obtain ⟨hkey, before, after, rfl, hbefore⟩ := List.find?_eq_some_iff_append.mp hfind
      obtain ⟨m, hm, hreport⟩ := ih (before ++ after)
      have hnone : atKey wanted.key before = [] := by
        simpa [atKey_eq_nil_iff] using hbefore
      refine ⟨_, .paired (by simpa using hkey) hnone hm, ?_⟩
      have herase : (before ++ found :: after).eraseP (fun a => a.key = wanted.key) =
          before ++ after := by
        rw [List.eraseP_append_right _ (by simpa using hbefore)]
        exact congrArg (before ++ ·) (List.eraseP_cons_of_pos hkey)
      simp only [matchAll, hfind, herase, hreport]
      rfl

/-- The findings of a key are matched by themselves, in order, and what is over is at the end. -/
theorem Matched.at_key {expected actual : List ExpectedFinding} {m : Matching}
    (h : Matched expected actual m) (k : Bytes) :
    atKey k m.lost = (atKey k expected).drop (atKey k actual).length ∧
      m.pairs.filter (fun p => p.1.key = k) = (atKey k expected).zip (atKey k actual) ∧
      atKey k m.left = (atKey k actual).drop (atKey k expected).length := by
  induction h with
  | done actual => exact ⟨by simp [atKey], by simp [atKey], by simp [atKey]⟩
  | @lost wanted expected actual m hnone rest ih =>
    obtain ⟨hlost, hpairs, hleft⟩ := ih
    by_cases hk : wanted.key = k
    · rw [hk] at hnone
      rw [hnone] at hlost hpairs hleft
      refine ⟨?_, ?_, ?_⟩
      · rw [atKey_cons_of_eq hk, atKey_cons_of_eq hk, hnone, hlost]
        rfl
      · rw [hpairs, hnone, List.zip_nil_right, List.zip_nil_right]
      · rw [hleft, hnone, List.drop_nil, List.drop_nil]
    · rw [atKey_cons_of_ne hk, atKey_cons_of_ne hk]
      exact ⟨hlost, hpairs, hleft⟩
  | @paired wanted found expected before after m hkey hbefore rest ih =>
    obtain ⟨hlost, hpairs, hleft⟩ := ih
    rw [atKey_append] at hlost hpairs hleft
    by_cases hk : wanted.key = k
    · rw [hk] at hbefore
      rw [hbefore, List.nil_append] at hlost hpairs hleft
      have hactual : atKey k (before ++ found :: after) = found :: atKey k after := by
        rw [atKey_append, hbefore, List.nil_append, atKey_cons_of_eq (hkey.trans hk)]
      rw [hactual, atKey_cons_of_eq hk]
      refine ⟨hlost, ?_, hleft⟩
      rw [List.filter_cons_of_pos (by simpa using hk), hpairs, List.zip_cons_cons]
    · have hactual : atKey k (before ++ found :: after) = atKey k before ++ atKey k after := by
        rw [atKey_append, atKey_cons_of_ne (hkey ▸ hk)]
      rw [hactual, atKey_cons_of_ne hk, List.filter_cons_of_neg (by simpa using hk)]
      exact ⟨hlost, hpairs, hleft⟩

/-- Every finding is matched or over. -/
theorem Matched.length {expected actual : List ExpectedFinding} {m : Matching}
    (h : Matched expected actual m) :
    expected.length = m.pairs.length + m.lost.length ∧
      actual.length = m.pairs.length + m.left.length := by
  induction h with
  | done actual => simp
  | lost hnone rest ih =>
    simp only [List.length_cons]
    omega
  | paired hkey hbefore rest ih =>
    simp only [List.length_cons, List.length_append] at ih ⊢
    omega

/-- There are no texts exactly when there are no findings. -/
theorem sort_texts_eq_nil_iff {l : List ExpectedFinding} :
    Bytes.sort (l.map text) = [] ↔ l = [] := by
  rw [← List.length_eq_zero_iff, (Bytes.perm_sort _).length_eq, List.length_map,
    List.length_eq_zero_iff]

/-- The comparison reports on a matching, with what is over on either side in order. -/
theorem exists_compare_eq (expected actual : List ExpectedFinding) :
    ∃ m, Matched expected actual m ∧ compare expected actual =
      ⟨Bytes.sort (m.lost.map text), Bytes.sort (m.left.map text),
        m.pairs.flatMap fun p => p.1.mismatches p.2⟩ := by
  obtain ⟨m, hm, hreport⟩ := exists_matched expected actual
  refine ⟨m, hm, ?_⟩
  rw [compare, hreport]
  rfl

/-- Nothing is over on either side exactly when both sides have the same keys equally often. -/
theorem Matched.nothing_over_iff {expected actual : List ExpectedFinding} {m : Matching}
    (h : Matched expected actual m) :
    m.lost = [] ∧ m.left = [] ↔ (expected.map key).Perm (actual.map key) := by
  rw [perm_keys_iff, eq_nil_iff_atKey, eq_nil_iff_atKey, ← forall_and]
  refine forall_congr' fun k => ?_
  obtain ⟨hlost, -, hleft⟩ := h.at_key k
  rw [hlost, hleft, List.drop_eq_nil_iff, List.drop_eq_nil_iff]
  omega

/-- The missing findings are the last expected ones of each key, as many as there are more than
actual ones, and the unexpected findings the last actual ones, as many as there are more than
expected ones; both are reported in order. So as many expected as actual findings have a partner,
and all of them have one exactly when both sides have the same keys equally often. -/
theorem compare_reports_surplus (expected actual : List ExpectedFinding) :
    ∃ lost left : List ExpectedFinding,
      (∀ k, atKey k lost =
        (atKey k expected).rtake ((atKey k expected).length - (atKey k actual).length)) ∧
      (∀ k, atKey k left =
        (atKey k actual).rtake ((atKey k actual).length - (atKey k expected).length)) ∧
      (compare expected actual).missing.Perm (lost.map text) ∧
      (compare expected actual).missing.Pairwise (fun s t => Bytes.le s t = true) ∧
      (compare expected actual).unexpected.Perm (left.map text) ∧
      (compare expected actual).unexpected.Pairwise (fun s t => Bytes.le s t = true) ∧
      (expected.length : Int) - (compare expected actual).missing.length =
        actual.length - (compare expected actual).unexpected.length ∧
      ((compare expected actual).missing = [] ∧ (compare expected actual).unexpected = [] ↔
        (expected.map key).Perm (actual.map key)) := by
  obtain ⟨m, hm, hcompare⟩ := exists_compare_eq expected actual
  rw [hcompare]
  refine ⟨m.lost, m.left, ?_, ?_, Bytes.perm_sort _, Bytes.pairwise_sort _, Bytes.perm_sort _,
    Bytes.pairwise_sort _, ?_, ?_⟩
  · intro k
    rw [(hm.at_key k).1, drop_eq_rtake]
  · intro k
    rw [(hm.at_key k).2.2, drop_eq_rtake]
  · have hlength := hm.length
    rw [(Bytes.perm_sort _).length_eq, (Bytes.perm_sort _).length_eq, List.length_map,
      List.length_map]
    omega
  · rw [sort_texts_eq_nil_iff, sort_texts_eq_nil_iff, hm.nothing_over_iff]

end ExpectedFinding

end ReturnAudit
