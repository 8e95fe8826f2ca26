import Mathlib.Data.List.Perm.Basic

/-!
# Stable sorting

Sorting keeps the order of elements that are tied. So a sorted list is determined by its order and
by what it holds of each class of ties, and two lists with the same ties in the same order sort to
the same list. Leaving elements out before sorting or after it makes no difference, and a part of a
list sorts to a part of the sorted list.
-/

namespace ReturnAudit

variable {α : Type}

/-- Whether neither of two elements comes strictly before the other. -/
def tied (le : α → α → Bool) (a b : α) : Bool :=
  le a b && le b a

variable {le : α → α → Bool}

/-- Everything is tied with itself. -/
theorem tied_self (total : ∀ a b, le a b || le b a) (a : α) : tied le a a = true := by
  have h := total a a
  rw [Bool.or_self] at h
  simp only [tied, h, Bool.and_self]

/-- Sorting keeps elements that are tied with a given one in their order. -/
theorem filter_tied_mergeSort (trans : ∀ a b c, le a b → le b c → le a c)
    (total : ∀ a b, le a b || le b a) (a : α) (l : List α) :
    (l.mergeSort le).filter (tied le a) = l.filter (tied le a) := by
  have hpairs : (l.filter (tied le a)).Pairwise (fun b c => le b c = true) := by
    refine List.pairwise_of_forall_mem_list ?_
    intro b hb c hc
    have hba : le b a = true := (Bool.and_eq_true_iff.mp (List.mem_filter.mp hb).2).2
    have hac : le a c = true := (Bool.and_eq_true_iff.mp (List.mem_filter.mp hc).2).1
    exact trans b a c hba hac
  have hsub := (List.sublist_mergeSort trans total hpairs List.filter_sublist).filter (tied le a)
  rw [List.filter_filter] at hsub
  simp only [Bool.and_self] at hsub
  have hlen := ((List.mergeSort_perm l le).filter (tied le a)).length_eq
  exact (hsub.eq_of_length hlen.symm).symm

/-- A sorted list is determined by what it holds of each class of ties. -/
theorem eq_of_filter_tied (total : ∀ a b, le a b || le b a) {l l' : List α}
    (hl : l.Pairwise fun a b => le a b = true) (hl' : l'.Pairwise fun a b => le a b = true)
    (h : ∀ a, l.filter (tied le a) = l'.filter (tied le a)) : l = l' := by
  have hmem : ∀ {l l' : List α}, (∀ a, l.filter (tied le a) = l'.filter (tied le a)) →
      ∀ a ∈ l, a ∈ l' := by
    intro l l' h a ha
    have hin : a ∈ l.filter (tied le a) := List.mem_filter.mpr ⟨ha, tied_self total a⟩
    exact List.mem_of_mem_filter (h a ▸ hin)
  induction l generalizing l' with
  | nil =>
    cases l' with
    | nil => rfl
    | cons b l' => exact absurd (hmem (fun a => (h a).symm) b List.mem_cons_self) List.not_mem_nil
  | cons a l ih =>
    cases l' with
    | nil => exact absurd (hmem h a List.mem_cons_self) List.not_mem_nil
    | cons b l' =>
      rw [List.pairwise_cons] at hl hl'
      have hself : ∀ c, tied le c c = true := tied_self total
      -- each head is somewhere in the other list, so the two heads are tied
      have hab : tied le a b = true := by
        rcases List.mem_cons.mp (hmem h a List.mem_cons_self) with rfl | ha
        · exact hself a
        rcases List.mem_cons.mp (hmem (fun c => (h c).symm) b List.mem_cons_self) with rfl | hb
        · exact hself b
        · exact Bool.and_eq_true_iff.mpr ⟨hl.1 b hb, hl'.1 a ha⟩
      have hheads := h a
      rw [List.filter_cons_of_pos (hself a), List.filter_cons_of_pos hab] at hheads
      obtain ⟨rfl, -⟩ := List.cons.inj hheads
      refine congrArg (a :: ·) (ih hl.2 hl'.2 ?_)
      intro c
      have hc := h c
      by_cases hca : tied le c a = true
      · rw [List.filter_cons_of_pos hca, List.filter_cons_of_pos hca] at hc
        exact (List.cons.inj hc).2
      · rwa [List.filter_cons_of_neg hca, List.filter_cons_of_neg hca] at hc

/-- Lists that hold the same of each class of ties sort to the same list. -/
theorem mergeSort_eq_of_filter_tied (trans : ∀ a b c, le a b → le b c → le a c)
    (total : ∀ a b, le a b || le b a) {l l' : List α}
    (h : ∀ a, l.filter (tied le a) = l'.filter (tied le a)) : l.mergeSort le = l'.mergeSort le := by
  refine eq_of_filter_tied total (List.pairwise_mergeSort trans total l)
    (List.pairwise_mergeSort trans total l') ?_
  intro a
  rw [filter_tied_mergeSort trans total, filter_tied_mergeSort trans total, h a]

/-- The last element of a sorted list is the last of the greatest ones. -/
theorem exists_of_getLast?_mergeSort (trans : ∀ a b c, le a b → le b c → le a c)
    (total : ∀ a b, le a b || le b a) {l : List α} {a : α}
    (h : (l.mergeSort le).getLast? = some a) :
    ∃ before after, l = before ++ a :: after ∧ (∀ b ∈ before, le b a = true) ∧
      ∀ b ∈ after, le a b = false := by
  obtain ⟨init, hinit⟩ := List.getLast?_eq_some_iff.mp h
  have hbelow : ∀ b ∈ l, le b a = true := by
    intro b hb
    rw [← (List.mergeSort_perm l le).mem_iff, hinit] at hb
    rcases List.mem_append.mp hb with hb | hb
    · have hpairs := List.pairwise_mergeSort trans total l
      rw [hinit, List.pairwise_append] at hpairs
      exact hpairs.2.2 b hb a List.mem_cons_self
    · rw [List.mem_singleton.mp hb]
      exact (Bool.and_eq_true_iff.mp (tied_self total a)).1
  -- the elements tied with the last one keep their order, so the last of them is the same
  have htied := filter_tied_mergeSort trans total a l
  rw [hinit, List.filter_append, List.filter_singleton, tied_self total a] at htied
  obtain ⟨l₁, l₂, rfl, -, hl₂⟩ := List.filter_eq_append_iff.mp htied.symm
  obtain ⟨m, after, rfl, -, -, hafter⟩ := List.filter_eq_cons_iff.mp hl₂
  refine ⟨l₁ ++ m, after, by rw [List.append_assoc], ?_, ?_⟩
  · intro b hb
    refine hbelow b ?_
    rw [← List.append_assoc]
    exact List.mem_append_left _ hb
  · intro b hb
    have hnot := List.filter_eq_nil_iff.mp hafter b hb
    have hle := hbelow b (by simp [hb])
    simpa [tied, hle] using hnot

/-- Elements may be left out before sorting or after it. -/
theorem mergeSort_filter (trans : ∀ a b c, le a b → le b c → le a c)
    (total : ∀ a b, le a b || le b a) (p : α → Bool) (l : List α) :
    (l.filter p).mergeSort le = (l.mergeSort le).filter p := by
  refine eq_of_filter_tied total (List.pairwise_mergeSort trans total _)
    ((List.pairwise_mergeSort trans total l).filter p) ?_
  intro a
  calc ((l.filter p).mergeSort le).filter (tied le a)
      = (l.filter p).filter (tied le a) := filter_tied_mergeSort trans total a _
    _ = (l.filter (tied le a)).filter p := List.filter_comm _ _ l
    _ = ((l.mergeSort le).filter (tied le a)).filter p := by
        rw [filter_tied_mergeSort trans total]
    _ = ((l.mergeSort le).filter p).filter (tied le a) := List.filter_comm _ _ _

/-- Marks on the elements of a list tell which of them belong to a part of it. -/
private theorem exists_marked {l l' : List α} (h : l.Sublist l') :
    ∃ marked : List (α × Bool), marked.map Prod.fst = l' ∧
      (marked.filter Prod.snd).map Prod.fst = l := by
  induction h with
  | slnil => exact ⟨[], rfl, rfl⟩
  | cons a _ ih =>
    obtain ⟨marked, hall, hpart⟩ := ih
    exact ⟨(a, false) :: marked, by rw [List.map_cons, hall], by
      rwa [List.filter_cons_of_neg (by simp)]⟩
  | cons_cons a _ ih =>
    obtain ⟨marked, hall, hpart⟩ := ih
    exact ⟨(a, true) :: marked, by rw [List.map_cons, hall], by
      rw [List.filter_cons_of_pos rfl, List.map_cons, hpart]⟩

/-- A part of a list sorts to a part of the sorted list. -/
theorem sublist_mergeSort_mergeSort (trans : ∀ a b c, le a b → le b c → le a c)
    (total : ∀ a b, le a b || le b a) {l l' : List α} (h : l.Sublist l') :
    (l.mergeSort le).Sublist (l'.mergeSort le) := by
  obtain ⟨marked, rfl, rfl⟩ := exists_marked h
  let leMarked (a b : α × Bool) : Bool := le a.1 b.1
  have hforget : ∀ m : List (α × Bool),
      (m.mergeSort leMarked).map Prod.fst = (m.map Prod.fst).mergeSort le :=
    fun m => List.map_mergeSort fun _ _ _ _ => rfl
  have hfilter : (marked.filter Prod.snd).mergeSort leMarked =
      (marked.mergeSort leMarked).filter Prod.snd :=
    mergeSort_filter (fun a b c => trans a.1 b.1 c.1) (fun a b => total a.1 b.1) Prod.snd marked
  rw [← hforget, ← hforget, hfilter]
  exact List.filter_sublist.map Prod.fst

end ReturnAudit
