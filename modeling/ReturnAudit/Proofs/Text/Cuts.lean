import ReturnAudit.ClassFile.Descriptor

/-!
# Where texts are cut

A cut at the first or the last occurrence of a byte tells how a text is put together, and there is
only one way to put it together like that.
-/

namespace ReturnAudit.Bytes

/-- A text is cut around the separator that has none before it. -/
theorem cut_eq_some_iff {sep : UInt8} {s before after : Bytes} :
    cut sep s = some (before, after) ↔ s = before ++ sep :: after ∧ sep ∉ before := by
  induction s generalizing before with
  | nil => simp [cut]
  | cons b s ih =>
    rw [cut]
    by_cases hb : b = sep
    · subst hb
      cases before with
      | nil => simp [eq_comm]
      | cons x before =>
        simp only [if_true, Option.some.injEq, Prod.mk.injEq, List.cons_append, List.cons.injEq,
          List.mem_cons, not_or]
        constructor
        · rintro ⟨h, _⟩
          cases h
        · rintro ⟨⟨rfl, _⟩, hne, _⟩
          exact absurd rfl hne
    · rw [if_neg hb, Option.map_eq_some_iff]
      constructor
      · rintro ⟨⟨x, y⟩, hcut, heq⟩
        cases heq
        obtain ⟨rfl, hsep⟩ := ih.mp hcut
        refine ⟨rfl, fun hmem => ?_⟩
        rcases List.mem_cons.mp hmem with rfl | hmem
        · exact hb rfl
        · exact hsep hmem
      · rintro ⟨htext, hsep⟩
        cases before with
        | nil => exact absurd (List.cons.inj htext).1 hb
        | cons x before =>
          obtain ⟨rfl, rfl⟩ := List.cons.inj htext
          exact ⟨(before, after), ih.mpr ⟨rfl, fun h => hsep (List.mem_cons_of_mem _ h)⟩, rfl⟩

/-- A text that goes on is cut in the same place. -/
theorem cut_append {sep : UInt8} {s before after : Bytes} (h : cut sep s = some (before, after))
    (t : Bytes) : cut sep (s ++ t) = some (before, after ++ t) := by
  obtain ⟨rfl, hsep⟩ := cut_eq_some_iff.mp h
  exact cut_eq_some_iff.mpr ⟨by simp, hsep⟩

/-- A text cannot be cut exactly when the part does not occur in it. -/
theorem cutInfix_eq_none_iff {part s : Bytes} : cutInfix part s = none ↔ ¬ part <:+: s := by
  induction s with
  | nil =>
    rw [cutInfix, List.infix_nil]
    cases part <;> simp
  | cons b s ih =>
    rw [cutInfix, List.infix_cons_iff, ← List.isPrefixOf_iff_prefix]
    by_cases hpart : part.isPrefixOf (b :: s) = true
    · simp [hpart]
    · rw [if_neg hpart, Option.map_eq_none_iff, ih]
      simp [hpart]

/-- A cut gives the two parts of a text, of which the later starts with what was looked for. -/
theorem of_cutInfix {part s before after : Bytes} (h : cutInfix part s = some (before, after)) :
    s = before ++ after ∧ part <+: after := by
  induction s generalizing before with
  | nil =>
    cases part with
    | nil =>
      cases h
      exact ⟨rfl, List.nil_prefix⟩
    | cons b part => cases h
  | cons b s ih =>
    rw [cutInfix] at h
    by_cases hpart : part.isPrefixOf (b :: s) = true
    · rw [if_pos hpart] at h
      cases h
      exact ⟨rfl, List.isPrefixOf_iff_prefix.mp hpart⟩
    · rw [if_neg hpart] at h
      obtain ⟨⟨x, y⟩, hcut, heq⟩ := Option.map_eq_some_iff.mp h
      cases heq
      obtain ⟨rfl, hprefix⟩ := ih hcut
      exact ⟨rfl, hprefix⟩

/-- What follows a cut begins with the part. -/
theorem prefix_of_cutInfix {part s before after : Bytes}
    (h : cutInfix part s = some (before, after)) : part <+: after :=
  (of_cutInfix h).2

/-- What follows a cut is an end of the text. -/
theorem suffix_of_cutInfix {part s before after : Bytes}
    (h : cutInfix part s = some (before, after)) : after <:+ s :=
  ⟨before, (of_cutInfix h).1.symm⟩

/-- More text behind does not move a cut. -/
theorem cutInfix_append {part s before after : Bytes}
    (h : cutInfix part s = some (before, after)) (t : Bytes) :
    cutInfix part (s ++ t) = some (before, after ++ t) := by
  induction s generalizing before with
  | nil =>
    cases part with
    | nil =>
      cases h
      cases t <;> rfl
    | cons b part => cases h
  | cons b s ih =>
    have hlength : part.length ≤ (b :: s).length := by
      refine Nat.le_of_not_lt fun hlong => ?_
      have hnone : cutInfix part (b :: s) = none :=
        cutInfix_eq_none_iff.mpr fun hinfix => Nat.not_le_of_lt hlong hinfix.length_le
      rw [h] at hnone
      cases hnone
    have hhere : part.isPrefixOf (b :: s ++ t) = part.isPrefixOf (b :: s) := by
      rw [Bool.eq_iff_iff, List.isPrefixOf_iff_prefix, List.isPrefixOf_iff_prefix]
      constructor
      · exact fun hlong => List.prefix_of_prefix_length_le hlong (List.prefix_append _ t) hlength
      · exact fun hshort => hshort.trans (List.prefix_append _ t)
    rw [cutInfix] at h
    rw [List.cons_append, cutInfix, ← List.cons_append, hhere]
    by_cases hpart : part.isPrefixOf (b :: s) = true
    · rw [if_pos hpart] at h ⊢
      cases h
      rfl
    · rw [if_neg hpart] at h ⊢
      obtain ⟨⟨x, y⟩, hcut, heq⟩ := Option.map_eq_some_iff.mp h
      cases heq
      rw [ih hcut]
      rfl

/-- A text that goes on without a byte of the part has no more of it. -/
theorem cutInfix_append_eq_none {part s t : Bytes} (hpart : part ≠ [])
    (h : cutInfix part s = none) (ht : ∀ b ∈ t, b ∉ part) : cutInfix part (s ++ t) = none := by
  rw [cutInfix_eq_none_iff, List.infix_append_iff]
  rintro (hs | htail | ⟨x, y, rfl, hx, hy⟩)
  · exact cutInfix_eq_none_iff.mp h hs
  · obtain ⟨b, hb⟩ := List.exists_mem_of_ne_nil part hpart
    exact ht b (htail.subset hb) hb
  · cases y with
    | nil => exact cutInfix_eq_none_iff.mp h (by simpa using hx.isInfix)
    | cons b y => exact ht b (hy.subset List.mem_cons_self) (by simp)

/-- A text is cut around the separator that has none behind it. -/
theorem cutLast_eq_some_iff {sep : UInt8} {s before after : Bytes} :
    cutLast sep s = some (before, after) ↔ s = before ++ sep :: after ∧ sep ∉ after := by
  rw [cutLast, Option.map_eq_some_iff]
  constructor
  · rintro ⟨⟨x, y⟩, hcut, heq⟩
    cases heq
    obtain ⟨htext, hsep⟩ := cut_eq_some_iff.mp hcut
    rw [List.reverse_eq_iff] at htext
    exact ⟨by simpa using htext, by simpa using hsep⟩
  · rintro ⟨rfl, hsep⟩
    refine ⟨(after.reverse, before.reverse), cut_eq_some_iff.mpr ⟨by simp, by simpa using hsep⟩, ?_⟩
    simp

/-- A text falls apart at the first occurrence of a byte in one way. -/
theorem append_cons_inj {sep : UInt8} {a b a' b' : Bytes} (ha : sep ∉ a) (ha' : sep ∉ a')
    (h : a ++ sep :: b = a' ++ sep :: b') : a = a' ∧ b = b' := by
  have hcut : cut sep (a ++ sep :: b) = some (a', b') := cut_eq_some_iff.mpr ⟨h, ha'⟩
  rw [cut_eq_some_iff.mpr ⟨rfl, ha⟩] at hcut
  exact Prod.mk.inj (Option.some.inj hcut)

/-- A text falls apart at the last occurrence of a byte in one way. -/
theorem append_cons_inj_last {sep : UInt8} {a b a' b' : Bytes} (hb : sep ∉ b) (hb' : sep ∉ b')
    (h : a ++ sep :: b = a' ++ sep :: b') : a = a' ∧ b = b' := by
  have hcut : cutLast sep (a ++ sep :: b) = some (a', b') := cutLast_eq_some_iff.mpr ⟨h, hb'⟩
  rw [cutLast_eq_some_iff.mpr ⟨rfl, hb⟩] at hcut
  exact Prod.mk.inj (Option.some.inj hcut)

end Bytes

/-- No dot is left in a class name with slashes. -/
theorem Descriptor.not_mem_slashed (name : Bytes) : 46 ∉ Descriptor.slashed name := by
  rw [Descriptor.slashed, Bytes.replace, List.mem_map]
  rintro ⟨b, -, hb⟩
  split at hb
  · cases hb
  · exact absurd hb ‹_›

end ReturnAudit
