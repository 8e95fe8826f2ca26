import ReturnAudit.Obligation.Resolve

/-!
# Wider options

Options are wider when they have more catalog entries, bring the standard catalog back or ask for
every result to be used. The catalog and the general rule only speak where no class does. So wider
options keep every obligation that is known, and at most add one of low priority where nothing is.
-/

namespace ReturnAudit

/-- Options that add catalog entries anywhere among the given ones, may bring the standard catalog
back and may turn the general rule on. -/
structure ObligationOptions.Widens (options wider : ObligationOptions) : Prop where
  /-- The further entries are still there, with more entries among them. -/
  catalog : options.catalog.Sublist wider.catalog
  /-- The standard catalog is not left out where it was not before. -/
  standard : wider.noDefaultCatalog = true → options.noDefaultCatalog = true
  /-- The general rule is not turned off. -/
  checkAll : options.checkAll = true → wider.checkAll = true

variable {options wider : ObligationOptions}

/-- Wider options keep all entries of the catalog. -/
theorem ObligationOptions.Widens.mem_fullCatalog (h : options.Widens wider) {e : CatalogEntry}
    (he : e ∈ options.fullCatalog) : e ∈ wider.fullCatalog := by
  unfold ObligationOptions.fullCatalog at he ⊢
  rcases List.mem_append.mp he with hstandard | hfurther
  · refine List.mem_append_left _ ?_
    split at hstandard
    · cases hstandard
    · next hkept => rwa [if_neg fun hout => hkept (h.standard hout)]
  · exact List.mem_append_right _ (h.catalog.subset hfurther)

namespace Obligation

/-- What is covered stays covered. -/
theorem covered_of_widens (h : options.Widens wider) {owners : List Bytes} {ref : MethodRef}
    (hcovered : (owners.any fun owner =>
      CatalogEntry.covered options.fullCatalog owner ref) = true) :
    (owners.any fun owner => CatalogEntry.covered wider.fullCatalog owner ref) = true := by
  obtain ⟨owner, howner, hcovered⟩ := List.any_eq_true.mp hcovered
  obtain ⟨e, he, hcovers⟩ := List.any_eq_true.mp hcovered
  exact List.any_eq_true.mpr
    ⟨owner, howner, List.any_eq_true.mpr ⟨e, h.mem_fullCatalog he, hcovers⟩⟩

/-- What a class declares never leaves open what is expected. -/
theorem kind_ne_unset_of_declaredBy? {c : ClassFile.Class} {name signature : Bytes}
    {o : Obligation} (h : declaredBy? c name signature = some o) : o.kind ≠ .unset := by
  have hkinds : ∀ o ∈ expressible, o.kind ≠ .unset := by decide
  exact hkinds o (mem_expressible_of_declaredBy? h)

/-- Under wider options an obligation is the same, or there was none and now there is one of low
priority. -/
theorem resolve_of_widens (h : options.Widens wider) (hierarchy : Hierarchy) (ref : MethodRef) :
    resolve hierarchy wider ref = resolve hierarchy options ref ∨
      resolve hierarchy options ref = .unset ∧ resolve hierarchy wider ref = .inherited low := by
  unfold resolve
  -- the classes are asked first and do not look at the options
  cases (hierarchy.find? ref.owner).bind fun c => declaredBy? c ref.name ref.signature with
  | some o => exact Or.inl rfl
  | none =>
    dsimp only
    cases (inheritedFrom hierarchy ref).findSome? fun c =>
        declaredBy? c ref.name ref.signature with
    | some o => exact Or.inl rfl
    | none =>
      dsimp only
      by_cases hcovered : ((ref.owner :: (inheritedFrom hierarchy ref).map (·.name)).any
          fun owner => CatalogEntry.covered options.fullCatalog owner ref) = true
      · rw [if_pos hcovered, if_pos (covered_of_widens h hcovered)]
        exact Or.inl rfl
      rw [if_neg hcovered]
      by_cases hgeneral : (options.checkAll && takesGeneralRule ref.name ref.signature) = true
      · have hwider : (wider.checkAll && takesGeneralRule ref.name ref.signature) = true := by
          rw [Bool.and_eq_true] at hgeneral ⊢
          exact ⟨h.checkAll hgeneral.1, hgeneral.2⟩
        rw [if_pos hgeneral, if_pos hwider, ite_self]
        exact Or.inl rfl
      · rw [if_neg hgeneral]
        split
        · exact Or.inr ⟨rfl, rfl⟩
        · split
          · exact Or.inr ⟨rfl, rfl⟩
          · exact Or.inl rfl

/-- Where nothing is expected, nothing at all is known. -/
theorem eq_unset_of_kind {hierarchy : Hierarchy} {ref : MethodRef}
    (h : (resolve hierarchy options ref).kind = .unset) :
    resolve hierarchy options ref = .unset := by
  unfold resolve at h ⊢
  cases hown : (hierarchy.find? ref.owner).bind fun c => declaredBy? c ref.name ref.signature with
  | some o =>
    rw [hown] at h
    obtain ⟨c, -, hdeclared⟩ := Option.bind_eq_some_iff.mp hown
    exact absurd h (kind_ne_unset_of_declaredBy? hdeclared)
  | none =>
    rw [hown] at h
    dsimp only at h ⊢
    cases hinherited : (inheritedFrom hierarchy ref).findSome? fun c =>
        declaredBy? c ref.name ref.signature with
    | some o =>
      rw [hinherited] at h
      obtain ⟨c, -, hdeclared⟩ := List.exists_of_findSome?_eq_some hinherited
      have hkind : o.kind = .unset := h
      exact absurd hkind (kind_ne_unset_of_declaredBy? hdeclared)
    | none =>
      rw [hinherited] at h
      dsimp only at h ⊢
      split at h
      · cases h
      · next hcovered =>
        rw [if_neg hcovered]
        split at h
        · cases h
        · next hgeneral => rw [if_neg hgeneral]

end Obligation

end ReturnAudit
