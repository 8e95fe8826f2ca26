import ReturnAudit.Text.Bytes

/-!
# The bytewise order of texts

Texts are compared bytewise, which is the lexicographic order of lists: it is total, and only equal
texts are tied.
-/

namespace ReturnAudit.Bytes

/-- The bytewise comparison is the lexicographic one. -/
theorem cmp_eq_compare (a b : Bytes) : cmp a b = compare a b := by
  induction a generalizing b with
  | nil => cases b <;> rfl
  | cons x a ih =>
    cases b with
    | nil => rfl
    | cons y b =>
      rw [List.compare_cons_cons, cmp, ih]
      rcases Nat.lt_trichotomy x.toNat y.toNat with hlt | heq | hgt
      · have hxy : x < y := hlt
        rw [if_pos hxy, Std.compare_eq_lt.mpr hxy]
        rfl
      · obtain rfl := UInt8.toNat_inj.mp heq
        rw [if_neg (UInt8.lt_irrefl x), if_neg (UInt8.lt_irrefl x), Std.ReflOrd.compare_self]
        rfl
      · have hyx : y < x := hgt
        rw [if_neg (UInt8.lt_asymm hyx), if_pos hyx, Std.compare_eq_gt.mpr hyx]
        rfl

/-- Only a text itself compares as equal to it. -/
theorem cmp_eq_eq_iff (a b : Bytes) : cmp a b = .eq ↔ a = b := by
  rw [cmp_eq_compare, Std.LawfulEqOrd.compare_eq_iff_eq]

/-- The bytewise comparison decides the lexicographic order of lists. -/
theorem cmp_eq_lt_iff (a b : Bytes) : cmp a b = .lt ↔ a < b := by
  induction a generalizing b with
  | nil => cases b <;> simp [cmp]
  | cons x a ih =>
    cases b with
    | nil => simp [cmp]
    | cons y b =>
      rw [List.cons_lt_cons_iff, cmp, ← ih]
      rcases Nat.lt_trichotomy x.toNat y.toNat with hlt | heq | hgt
      · have hxy : x < y := hlt
        simp only [hxy, if_true, true_or]
      · obtain rfl := UInt8.toNat_inj.mp heq
        simp only [UInt8.lt_irrefl, if_false, true_and, false_or]
      · have hyx : y < x := hgt
        have hne : x ≠ y := fun h => UInt8.lt_irrefl y (h ▸ hyx)
        simp only [UInt8.lt_asymm hyx, hyx, hne, if_true, if_false, false_and, or_self,
          reduceCtorEq]

/-- The order is the one that the comparison tells. -/
theorem le_eq_isLE (a b : Bytes) : le a b = (compare a b).isLE := by
  rw [le, cmp_eq_compare]
  cases compare a b <;> rfl

/-- The order is transitive. -/
theorem le_trans (a b c : Bytes) (hab : le a b = true) (hbc : le b c = true) :
    le a c = true := by
  rw [le_eq_isLE] at hab hbc ⊢
  exact Std.TransOrd.isLE_trans hab hbc

/-- Of two texts one comes before the other or is equal to it. -/
theorem le_total (a b : Bytes) : (le a b || le b a) = true := by
  rw [le_eq_isLE, le_eq_isLE, Std.OrientedOrd.eq_swap]
  cases compare b a <;> rfl

/-- Sorting only changes the order of texts. -/
theorem perm_sort (texts : List Bytes) : (sort texts).Perm texts :=
  List.mergeSort_perm texts le

/-- Sorted texts are in bytewise order. -/
theorem pairwise_sort (texts : List Bytes) :
    (sort texts).Pairwise fun s t => le s t = true :=
  List.pairwise_mergeSort le_trans le_total texts

end ReturnAudit.Bytes
