import ReturnAudit.Report.Finding
import ReturnAudit.Proofs.Keyed
import ReturnAudit.Proofs.StableSort
import ReturnAudit.Proofs.Text.ByteOrder

/-!
# The order of findings

Texts are compared bytewise and findings by class, method, position and pattern. The comparison of
findings is a total preorder: two findings may be tied and yet differ, but findings of different
classes never are. So when findings are gathered class by class, the order of the classes is lost in
sorting. The order is also spelled out field by field, with texts and positions in their own orders.
-/

namespace ReturnAudit

namespace Finding

/-- The comparison of findings field by field. -/
theorem cmp_eq_compareLex : cmp =
    compareLex (compareOn className) (compareLex (compareOn methodKey)
      (compareLex (compareOn pc) (compareOn pattern))) := by
  funext f g
  simp only [cmp, Bytes.cmp_eq_compare]
  rfl

instance : Std.TransCmp cmp := by
  rw [cmp_eq_compareLex]
  infer_instance

/-- Comparing the other way round gives the opposite. -/
theorem cmp_swap (f g : Finding) : cmp g f = (cmp f g).swap :=
  Std.OrientedCmp.eq_swap

/-- The order is the one that the comparison tells. -/
theorem le_eq_isLE (f g : Finding) : le f g = (cmp f g).isLE := by
  unfold le
  cases cmp f g <;> rfl

/-- The order is transitive. -/
theorem le_trans (f g h : Finding) (hfg : le f g = true) (hgh : le g h = true) :
    le f h = true := by
  rw [le_eq_isLE] at hfg hgh ⊢
  exact Std.TransCmp.isLE_trans hfg hgh

/-- Of two findings one comes before the other or is tied with it. -/
theorem le_total (f g : Finding) : (le f g || le g f) = true := by
  rw [le_eq_isLE, le_eq_isLE, cmp_swap f g]
  cases cmp f g <;> rfl

/-- Findings are tied exactly when they compare as equal. -/
theorem tied_iff (f g : Finding) : tied le f g = true ↔ cmp f g = .eq := by
  rw [tied, le_eq_isLE, le_eq_isLE, cmp_swap f g]
  cases cmp f g <;> decide

/-- Findings that are tied are in the same class. -/
theorem className_eq_of_tied {f g : Finding} (h : tied le f g = true) :
    g.className = f.className := by
  rw [tied_iff, cmp_eq_compareLex, compareLex_eq_eq] at h
  exact (Std.LawfulEqOrd.eq_of_compare h.1).symm

variable {α : Type}

/-- Gathered under distinct class names, findings sort the same in every order of the classes. -/
theorem sort_flatMap_perm {l l' : List α} {name : α → Bytes} (h : (l.map name).Nodup)
    (hp : l'.Perm l) {g : α → List Finding} (hg : ∀ a, ∀ f ∈ g a, f.className = name a) :
    sort (l'.flatMap g) = sort (l.flatMap g) := by
  refine mergeSort_eq_of_filter_tied le_trans le_total ?_
  intro f
  -- what is tied with `f` is in the class of `f`
  have hclass : ∀ found : List Finding, found.filter (tied le f) =
      (found.filter fun f' => f'.className = f.className).filter (tied le f) := by
    intro found
    rw [List.filter_filter]
    refine List.filter_congr ?_
    intro f' _
    by_cases htied : tied le f f' = true
    · simp only [htied, className_eq_of_tied htied, decide_true, Bool.and_self]
    · rw [Bool.not_eq_true] at htied
      simp only [htied, Bool.false_and]
  rw [hclass, filter_flatMap_key_perm h hp hg, ← hclass]

/-- Whether a finding comes before another one: by class, then method, position and pattern. Texts
are compared byte by byte and positions as numbers. -/
def Precedes (f g : Finding) : Prop :=
  f.className < g.className ∨ f.className = g.className ∧
    (f.methodKey < g.methodKey ∨ f.methodKey = g.methodKey ∧
      (f.pc < g.pc ∨ f.pc = g.pc ∧ f.pattern < g.pattern))

/-- Whether two findings agree in everything that findings are ordered by. -/
def SamePlace (f g : Finding) : Prop :=
  f.className = g.className ∧ f.methodKey = g.methodKey ∧ f.pc = g.pc ∧ f.pattern = g.pattern

instance (f : Finding) : DecidablePred (SamePlace f) :=
  fun g => inferInstanceAs (Decidable (f.className = g.className ∧ f.methodKey = g.methodKey ∧
    f.pc = g.pc ∧ f.pattern = g.pattern))

/-- A finding compares as less exactly when it precedes the other. -/
theorem cmp_eq_lt_iff (f g : Finding) : cmp f g = .lt ↔ Precedes f g := by
  simp only [cmp, Ordering.then_eq_lt, Bytes.cmp_eq_lt_iff, Bytes.cmp_eq_eq_iff, Std.compare_eq_lt,
    Std.LawfulEqOrd.compare_eq_iff_eq, Precedes]

/-- Findings compare as equal exactly when they have the same place. -/
theorem cmp_eq_eq_iff (f g : Finding) : cmp f g = .eq ↔ SamePlace f g := by
  simp only [cmp, Ordering.then_eq_eq, Bytes.cmp_eq_eq_iff, Std.LawfulEqOrd.compare_eq_iff_eq,
    SamePlace]

/-- A finding may stand before another one unless it comes after it. -/
theorem le_iff_not_precedes (f g : Finding) : le f g = true ↔ ¬Precedes g f := by
  rw [← cmp_eq_lt_iff, cmp_swap f g, le_eq_isLE]
  cases cmp f g <;> decide

/-- Being tied is having the same place. -/
theorem tied_eq_samePlace (f : Finding) : tied le f = fun g => decide (SamePlace f g) := by
  funext g
  rw [Bool.eq_iff_iff, tied_iff, cmp_eq_eq_iff, decide_eq_true_eq]

end Finding

end ReturnAudit
