import Mathlib.Data.List.Nodup
import Mathlib.Order.Basic
import ReturnAudit.Hierarchy

/-!
# The first class of each name

Of several classes with one name the first one stands. So the names that are left are distinct, what
follows a list only adds classes with new names, and each class that is left stands before every
other class of its name.
-/

namespace ReturnAudit

/-- The names that are left are those of the list that were not seen before. -/
theorem mem_names_firstOfEachName {seen : List Bytes} {l : List ClassFile.Class} {name : Bytes} :
    name ∈ (firstOfEachName seen l).map (·.name) ↔ name ∈ l.map (·.name) ∧ name ∉ seen := by
  induction l generalizing seen with
  | nil => simp [firstOfEachName]
  | cons c l ih =>
    rw [firstOfEachName]
    by_cases hc : c.name ∈ seen
    · rw [if_pos (List.contains_iff_mem.mpr hc), ih, List.map_cons, List.mem_cons]
      constructor
      · exact fun ⟨hl, hseen⟩ => ⟨.inr hl, hseen⟩
      · rintro ⟨rfl | hl, hseen⟩
        · exact absurd hc hseen
        · exact ⟨hl, hseen⟩
    · rw [if_neg (mt List.contains_iff_mem.mp hc), List.map_cons, List.mem_cons, ih, List.map_cons,
        List.mem_cons, List.mem_cons, not_or]
      by_cases hname : name = c.name
      · simp [hname, hc]
      · simp [hname]

/-- No name is kept twice. -/
theorem nodup_names_firstOfEachName (seen : List Bytes) (l : List ClassFile.Class) :
    ((firstOfEachName seen l).map (·.name)).Nodup := by
  induction l generalizing seen with
  | nil => exact List.nodup_nil
  | cons c l ih =>
    rw [firstOfEachName]
    split
    · exact ih seen
    · refine List.nodup_cons.mpr ⟨fun hmem => ?_, ih (c.name :: seen)⟩
      exact (mem_names_firstOfEachName.mp hmem).2 List.mem_cons_self

/-- Names that were seen in addition are left out, before or after. -/
theorem firstOfEachName_eq_filter {seen seen' extra : List Bytes}
    (h : ∀ name, name ∈ seen' ↔ name ∈ seen ∨ name ∈ extra) (l : List ClassFile.Class) :
    firstOfEachName seen' l = (firstOfEachName seen l).filter fun c => c.name ∉ extra := by
  induction l generalizing seen seen' with
  | nil => rfl
  | cons c l ih =>
    rw [firstOfEachName, firstOfEachName]
    by_cases hseen : c.name ∈ seen
    · rw [if_pos (List.contains_iff_mem.mpr ((h c.name).mpr (.inl hseen))),
        if_pos (List.contains_iff_mem.mpr hseen), ih h]
    rw [if_neg (mt List.contains_iff_mem.mp hseen)]
    by_cases hextra : c.name ∈ extra
    · -- the name is remembered on one side only, where it changes nothing
      have h' : ∀ name, name ∈ seen' ↔ name ∈ c.name :: seen ∨ name ∈ extra := by
        intro name
        rw [h, List.mem_cons, or_assoc, eq_comm]
        exact ⟨.inr, Or.rec (fun heq => .inr (heq ▸ hextra)) id⟩
      rw [if_pos (List.contains_iff_mem.mpr ((h c.name).mpr (.inr hextra))),
        List.filter_cons_of_neg (by simpa using hextra), ih h']
    · have hseen' : c.name ∉ seen' := fun hmem => ((h c.name).mp hmem).elim hseen hextra
      have h' : ∀ name, name ∈ c.name :: seen' ↔ name ∈ c.name :: seen ∨ name ∈ extra := by
        intro name
        rw [List.mem_cons, List.mem_cons, h, or_assoc]
      rw [if_neg (mt List.contains_iff_mem.mp hseen'),
        List.filter_cons_of_pos (by simpa using hextra), ih h']

/-- What follows a list adds the classes with new names. -/
theorem firstOfEachName_append (seen : List Bytes) (l l' : List ClassFile.Class) :
    firstOfEachName seen (l ++ l') = firstOfEachName seen l ++
      (firstOfEachName seen l').filter fun c => c.name ∉ (firstOfEachName seen l).map (·.name) := by
  induction l generalizing seen with
  | nil => simp [firstOfEachName]
  | cons c l ih =>
    rw [List.cons_append, firstOfEachName, firstOfEachName]
    split
    · exact ih seen
    · have hone : ∀ name, name ∈ c.name :: seen ↔ name ∈ seen ∨ name ∈ [c.name] := by
        intro name
        rw [List.mem_cons, List.mem_singleton, or_comm]
      rw [ih, List.cons_append, firstOfEachName_eq_filter hone l', List.filter_filter]
      congr 2
      refine List.filter_congr fun d _ => ?_
      simp only [List.map_cons, List.mem_cons, List.not_mem_nil, or_false, not_or, Bool.decide_and,
        Bool.and_comm]

/-- In a list of classes at increasing places, each class that is left stands before every other
class of its name. -/
theorem exists_first_places {κ : Type} [Preorder κ] {placed : List (κ × ClassFile.Class)}
    (h : placed.Pairwise fun x y => x.1 < y.1) (seen : List Bytes) :
    ∃ kept : List (κ × ClassFile.Class), kept.Sublist placed ∧
      kept.map Prod.snd = firstOfEachName seen (placed.map Prod.snd) ∧
      ∀ x ∈ kept, x.2.name ∉ seen ∧ ∀ y ∈ placed, y.2.name = x.2.name → x.1 ≤ y.1 := by
  induction placed generalizing seen with
  | nil => exact ⟨[], .slnil, rfl, fun x hx => absurd hx List.not_mem_nil⟩
  | cons z placed ih =>
    obtain ⟨hz, h⟩ := List.pairwise_cons.mp h
    rw [List.map_cons, firstOfEachName]
    by_cases hseen : z.2.name ∈ seen
    · obtain ⟨kept, hsub, hkept, hfirst⟩ := ih h seen
      rw [if_pos (List.contains_iff_mem.mpr hseen)]
      refine ⟨kept, hsub.cons z, hkept, fun x hx => ⟨(hfirst x hx).1, fun y hy hname => ?_⟩⟩
      rcases List.mem_cons.mp hy with rfl | hy
      · exact absurd (hname ▸ hseen) (hfirst x hx).1
      · exact (hfirst x hx).2 y hy hname
    · obtain ⟨kept, hsub, hkept, hfirst⟩ := ih h (z.2.name :: seen)
      rw [if_neg (mt List.contains_iff_mem.mp hseen)]
      refine ⟨z :: kept, hsub.cons_cons z, by rw [List.map_cons, hkept], fun x hx => ?_⟩
      rcases List.mem_cons.mp hx with rfl | hx
      · refine ⟨hseen, fun y hy _ => ?_⟩
        rcases List.mem_cons.mp hy with rfl | hy
        · exact le_refl _
        · exact (hz y hy).le
      · have hnew := (hfirst x hx).1
        rw [List.mem_cons, not_or] at hnew
        refine ⟨hnew.2, fun y hy hname => ?_⟩
        rcases List.mem_cons.mp hy with rfl | hy
        · exact absurd hname.symm hnew.1
        · exact (hfirst x hx).2 y hy hname

end ReturnAudit
