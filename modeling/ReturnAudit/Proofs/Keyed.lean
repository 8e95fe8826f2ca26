import Mathlib.Data.List.Nodup
import Mathlib.Data.List.Perm.Basic

/-!
# Lists with distinct keys

Classes of a run have distinct names and methods of a class distinct references. In such a list an
element is found by its key, and what is collected under one key does not depend on the order of
the list.
-/

namespace ReturnAudit

variable {α β κ : Type}

/-- In a list with distinct keys an element is the first one with its key. -/
theorem find?_key [DecidableEq κ] {l : List α} {key : α → κ} (h : (l.map key).Nodup) {a : α}
    (ha : a ∈ l) : l.find? (fun b => key b = key a) = some a := by
  induction l with
  | nil => cases ha
  | cons b l ih =>
    rw [List.map_cons, List.nodup_cons] at h
    rcases List.mem_cons.mp ha with rfl | hmem
    · simp
    · have hne : ¬ key b = key a := by
        intro heq
        exact h.1 (heq ▸ List.mem_map_of_mem hmem)
      simp only [List.find?_cons, hne, decide_false]
      exact ih h.2 hmem

/-- In a list with distinct keys, what is found under a key does not depend on the order. -/
theorem find?_key_perm [DecidableEq κ] {l l' : List α} {key : α → κ} (h : (l.map key).Nodup)
    (hp : l'.Perm l) (k : κ) :
    l'.find? (fun b => key b = k) = l.find? (fun b => key b = k) := by
  have h' : (l'.map key).Nodup := (hp.map key).nodup_iff.mpr h
  cases hfind : l.find? (fun b => key b = k) with
  | none =>
    rw [List.find?_eq_none] at hfind ⊢
    exact fun b hb => hfind b (hp.mem_iff.mp hb)
  | some a =>
    have hk : key a = k := by simpa using List.find?_some hfind
    rw [← hk]
    exact find?_key h' (hp.mem_iff.mpr (List.mem_of_find?_eq_some hfind))

/-- Going through the distinct keys of a list goes through the list. -/
theorem flatMap_find?_key [DecidableEq κ] {l : List α} {key : α → κ} (h : (l.map key).Nodup)
    (g : α → List β) :
    ((l.map key).flatMap fun k => (l.find? fun a => key a = k).elim [] g) = l.flatMap g := by
  rw [List.flatMap_map]
  refine List.flatMap_congr ?_
  intro a ha
  rw [find?_key h ha, Option.elim_some]

/-- Under one key, what a list with distinct keys gives comes from the element with that key. -/
theorem filter_flatMap_key [DecidableEq κ] {l : List α} {key : α → κ} (h : (l.map key).Nodup)
    {g : α → List β} {key' : β → κ} (hg : ∀ a, ∀ b ∈ g a, key' b = key a) (k : κ) :
    (l.flatMap g).filter (fun b => key' b = k) = (l.find? (fun a => key a = k)).elim [] g := by
  induction l with
  | nil => rfl
  | cons a l ih =>
    rw [List.map_cons, List.nodup_cons] at h
    rw [List.flatMap_cons, List.filter_append, ih h.2, List.find?_cons]
    by_cases hk : key a = k
    · have hall : (g a).filter (fun b => key' b = k) = g a := by
        refine List.filter_eq_self.mpr ?_
        intro b hb
        simp only [hg a b hb, hk, decide_true]
      have hnone : l.find? (fun b => key b = k) = none := by
        refine List.find?_eq_none.mpr ?_
        intro b hb
        have hne : key b ≠ k := fun heq => h.1 (hk ▸ heq ▸ List.mem_map_of_mem hb)
        simp only [hne, decide_false, Bool.false_eq_true, not_false_eq_true]
      simp only [hall, hnone, hk, decide_true, Option.elim_none, Option.elim_some, List.append_nil]
    · have hnil : (g a).filter (fun b => key' b = k) = [] := by
        refine List.filter_eq_nil_iff.mpr ?_
        intro b hb
        simp only [hg a b hb, hk, decide_false, Bool.false_eq_true, not_false_eq_true]
      simp only [hnil, hk, decide_false, List.nil_append]

/-- Under one key, what a list with distinct keys gives does not depend on the order. -/
theorem filter_flatMap_key_perm [DecidableEq κ] {l l' : List α} {key : α → κ}
    (h : (l.map key).Nodup) (hp : l'.Perm l) {g : α → List β} {key' : β → κ}
    (hg : ∀ a, ∀ b ∈ g a, key' b = key a) (k : κ) :
    (l'.flatMap g).filter (fun b => key' b = k) = (l.flatMap g).filter (fun b => key' b = k) := by
  rw [filter_flatMap_key h hg, filter_flatMap_key ((hp.map key).nodup_iff.mpr h) hg,
    find?_key_perm h hp]

/-- Looking up a key asks the first pair and then the others. -/
theorem lookup_cons_key [BEq κ] [LawfulBEq κ] [DecidableEq κ] (e : κ × α)
    (l : List (κ × α)) (k : κ) :
    (e :: l).lookup k = if e.1 = k then some e.2 else l.lookup k := by
  obtain ⟨k', a⟩ := e
  by_cases h : k' = k
  · subst h
    simp only [List.lookup_cons, beq_self_eq_true, if_true]
  · have hne : (k == k') = false := beq_false_of_ne (Ne.symm h)
    simp only [List.lookup_cons, hne, h, if_false]

/-- Looking a key up finds the first element with the key. -/
theorem lookup_eq_find? [BEq κ] [LawfulBEq κ] [DecidableEq κ] (l : List (κ × α)) (k : κ) :
    l.lookup k = (l.find? fun e => e.1 = k).map Prod.snd := by
  induction l with
  | nil => rfl
  | cons e l ih =>
    rw [lookup_cons_key, List.find?_cons, ih]
    by_cases h : e.1 = k
    · simp only [h, if_true, decide_true, Option.map_some]
    · simp only [h, if_false, decide_false]

/-- What is looked up is one of the entries. -/
theorem mem_of_lookup [BEq κ] [LawfulBEq κ] {l : List (κ × α)} {k : κ} {a : α}
    (h : l.lookup k = some a) : (k, a) ∈ l := by
  obtain ⟨before, after, hsplit, -⟩ := List.lookup_eq_some_iff.mp h
  simp [hsplit]

/-- In a list with distinct keys, what is looked up does not depend on the order. -/
theorem lookup_perm [BEq κ] [LawfulBEq κ] [DecidableEq κ] {l l' : List (κ × α)}
    (h : (l.map Prod.fst).Nodup) (hp : l'.Perm l) (k : κ) : l'.lookup k = l.lookup k := by
  rw [lookup_eq_find?, lookup_eq_find?, find?_key_perm h hp]

/-- Looking a key up among changed values. -/
theorem lookup_map_values [BEq κ] [LawfulBEq κ] [DecidableEq κ] (f : α → β)
    (l : List (κ × α)) (k : κ) :
    (l.map (Prod.map id f)).lookup k = (l.lookup k).map f := by
  rw [lookup_eq_find?, lookup_eq_find?, List.find?_map, Option.map_map, Option.map_map]
  rfl

end ReturnAudit
