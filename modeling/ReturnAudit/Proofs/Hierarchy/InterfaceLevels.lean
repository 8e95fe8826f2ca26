import ReturnAudit.Hierarchy
import Mathlib.Data.List.Basic
import Mathlib.Data.Nat.Find
import Mathlib.Order.Bounds.Basic

/-!
# Interfaces level by level

Interfaces lead from class to class, and the levels of a walk are the classes at one distance from
where the walk starts. A stage of the walk is the last level that was found with the names seen so
far. What a stage knows is exactly which classes are that near and which are nearer, and looking up
the interfaces of the last level keeps this for the next distance.
-/

namespace ReturnAudit.Hierarchy

variable {h : Hierarchy} {sources : List ClassFile.Class}

/-- A class that is found under a name has this name. -/
theorem name_of_find? {name : Bytes} {c : ClassFile.Class} (hc : h.find? name = some c) :
    c.name = name := by
  simpa using List.find?_some hc

/-- A class that is found is found under its own name. -/
theorem find?_name {name : Bytes} {c : ClassFile.Class} (hc : h.find? name = some c) :
    h.find? c.name = some c := by
  rwa [name_of_find? hc]

/-- Whether a class names the other one among its interfaces. -/
def Implements (h : Hierarchy) (c d : ClassFile.Class) : Prop :=
  ∃ name ∈ c.interfaces, h.find? name = some d

/-- Whether so many steps from a class to one of its interfaces lead from one class to another. -/
inductive InterfacePath (h : Hierarchy) : Nat → ClassFile.Class → ClassFile.Class → Prop
  | refl (c : ClassFile.Class) : InterfacePath h 0 c c
  | step {n : Nat} {c d e : ClassFile.Class} :
      InterfacePath h n c d → h.Implements d e → InterfacePath h (n + 1) c e

/-- Whether the shortest path from some source to a class has so many steps. -/
def Distance (h : Hierarchy) (sources : List ClassFile.Class) (c : ClassFile.Class) (n : Nat) :
    Prop :=
  IsLeast {n | ∃ s ∈ sources, h.InterfacePath n s c} n

/-- Whether a class is at most so many steps away from some source. -/
def Within (h : Hierarchy) (sources : List ClassFile.Class) (k : Nat) (c : ClassFile.Class) :
    Prop :=
  ∃ n ≤ k, ∃ s ∈ sources, h.InterfacePath n s c

/-- A class that is implemented is found under its name. -/
theorem Implements.find?_name {c d : ClassFile.Class} (hd : h.Implements c d) :
    h.find? d.name = some d := by
  obtain ⟨name, _, hname⟩ := hd
  exact Hierarchy.find?_name hname

/-- The classes at no distance are the sources. -/
theorem distance_zero_iff {c : ClassFile.Class} : h.Distance sources c 0 ↔ c ∈ sources := by
  constructor
  · rintro ⟨⟨s, hs, hpath⟩, _⟩
    cases hpath
    exact hs
  · intro hc
    exact ⟨⟨c, hc, .refl c⟩, fun n _ => Nat.zero_le n⟩

/-- The classes within no distance are the sources. -/
theorem within_zero_iff {c : ClassFile.Class} : h.Within sources 0 c ↔ c ∈ sources := by
  constructor
  · rintro ⟨n, hn, s, hs, hpath⟩
    obtain rfl : n = 0 := Nat.le_zero.mp hn
    cases hpath
    exact hs
  · intro hc
    exact ⟨0, le_rfl, c, hc, .refl c⟩

/-- What is one step further away but not nearer is at that distance. -/
theorem distance_succ_iff {c : ClassFile.Class} {k : Nat} :
    h.Distance sources c (k + 1) ↔ h.Within sources (k + 1) c ∧ ¬ h.Within sources k c := by
  constructor
  · rintro ⟨⟨s, hs, hpath⟩, hleast⟩
    refine ⟨⟨k + 1, le_rfl, s, hs, hpath⟩, ?_⟩
    rintro ⟨n, hn, t, ht, hpath'⟩
    have hle : k + 1 ≤ n := hleast ⟨t, ht, hpath'⟩
    omega
  · rintro ⟨⟨n, hn, s, hs, hpath⟩, hnot⟩
    have hfar : ∀ m, (∃ t ∈ sources, h.InterfacePath m t c) → k + 1 ≤ m := by
      intro m hm
      by_contra hlt
      exact hnot ⟨m, by omega, hm⟩
    obtain rfl : n = k + 1 := le_antisymm hn (hfar n ⟨s, hs, hpath⟩)
    exact ⟨⟨s, hs, hpath⟩, fun m hm => hfar m hm⟩

/-- The next distance is reached by one step from the classes at the last one. -/
theorem within_succ_iff {c : ClassFile.Class} {k : Nat} :
    h.Within sources (k + 1) c ↔
      h.Within sources k c ∨ ∃ d, h.Distance sources d k ∧ h.Implements d c := by
  constructor
  · rintro ⟨n, hn, s, hs, hpath⟩
    cases hpath with
    | refl => exact .inl ⟨0, Nat.zero_le k, c, hs, .refl c⟩
    | @step m _ d _ hd himpl =>
      by_cases hnear : ∃ m' < k, ∃ t ∈ sources, h.InterfacePath m' t d
      · obtain ⟨m', hm', t, ht, hpath'⟩ := hnear
        exact .inl ⟨m' + 1, hm', t, ht, hpath'.step himpl⟩
      · have hfar : ∀ m', (∃ t ∈ sources, h.InterfacePath m' t d) → k ≤ m' := by
          intro m' ht
          by_contra hlt
          exact hnear ⟨m', by omega, ht⟩
        obtain rfl : m = k := le_antisymm (by omega) (hfar m ⟨s, hs, hd⟩)
        exact .inr ⟨d, ⟨⟨s, hs, hd⟩, fun m' hm' => hfar m' hm'⟩, himpl⟩
  · rintro (⟨n, hn, s, hs, hpath⟩ | ⟨d, ⟨⟨s, hs, hpath⟩, _⟩, himpl⟩)
    · exact ⟨n, by omega, s, hs, hpath⟩
    · exact ⟨k + 1, le_rfl, s, hs, hpath.step himpl⟩

/-- What is reached has a distance. -/
theorem exists_distance {c s : ClassFile.Class} {n : Nat} (hs : s ∈ sources)
    (hpath : h.InterfacePath n s c) : ∃ k, h.Distance sources c k := by
  classical
  have hex : ∃ n, ∃ s ∈ sources, h.InterfacePath n s c := ⟨n, s, hs, hpath⟩
  exact ⟨Nat.find hex, Nat.find_spec hex, fun m hm => Nat.find_min' hex hm⟩

section

variable (h) (seen names : List Bytes)

/-- A name that was seen before discovers nothing. -/
theorem discover_cons_of_mem {seen : List Bytes} {name : Bytes} (hname : name ∈ seen) :
    h.discover seen (name :: names) = h.discover seen names := by
  simp only [discover, List.contains_iff_mem.mpr hname, if_true]

/-- The class of a new name, if it is known, stands before what is discovered later. -/
theorem discover_cons_of_not_mem {seen : List Bytes} {name : Bytes} (hname : name ∉ seen) :
    h.discover seen (name :: names) =
      ((h.find? name).toList ++ (h.discover (name :: seen) names).1,
        (h.discover (name :: seen) names).2) := by
  have hnot : seen.contains name = false := by simpa using hname
  simp only [discover, hnot, Bool.false_eq_true, if_false]
  cases h.find? name <;> rfl

/-- What is discovered among some names: the known classes of those that were not seen. -/
theorem mem_discover {c : ClassFile.Class} :
    c ∈ (h.discover seen names).1 ↔
      c.name ∈ names ∧ c.name ∉ seen ∧ h.find? c.name = some c := by
  induction names generalizing seen with
  | nil => simp [discover]
  | cons name names ih =>
    by_cases hname : name ∈ seen
    · rw [discover_cons_of_mem h names hname, ih, List.mem_cons]
      constructor
      · rintro ⟨hmem, hrest⟩
        exact ⟨.inr hmem, hrest⟩
      · rintro ⟨rfl | hmem, hnot, hfind⟩
        · exact absurd hname hnot
        · exact ⟨hmem, hnot, hfind⟩
    · rw [discover_cons_of_not_mem h names hname, List.mem_append, Option.mem_toList, ih,
        List.mem_cons, List.mem_cons, not_or]
      constructor
      · rintro (hfind | ⟨hmem, ⟨_, hseen⟩, hc⟩)
        · have heq := name_of_find? hfind
          exact ⟨.inl heq, heq ▸ hname, find?_name hfind⟩
        · exact ⟨.inr hmem, hseen, hc⟩
      · rintro ⟨hmem, hseen, hc⟩
        by_cases heq : c.name = name
        · exact .inl (heq ▸ hc)
        · exact .inr ⟨hmem.resolve_left heq, ⟨heq, hseen⟩, hc⟩

/-- All names are seen then. -/
theorem mem_seen_discover {name : Bytes} :
    name ∈ (h.discover seen names).2 ↔ name ∈ seen ∨ name ∈ names := by
  induction names generalizing seen with
  | nil => simp [discover]
  | cons first names ih =>
    by_cases hfirst : first ∈ seen
    · rw [discover_cons_of_mem h names hfirst, ih, List.mem_cons]
      constructor
      · rintro (hseen | hmem)
        · exact .inl hseen
        · exact .inr (.inr hmem)
      · rintro (hseen | rfl | hmem)
        · exact .inl hseen
        · exact .inl hfirst
        · exact .inr hmem
    · rw [discover_cons_of_not_mem h names hfirst, ih, List.mem_cons, List.mem_cons, or_assoc,
        or_left_comm]

/-- Classes are discovered in the order in which their names are first mentioned. -/
theorem ordered_discover :
    (h.discover seen names).1.Pairwise fun c d => names.idxOf c.name < names.idxOf d.name := by
  induction names generalizing seen with
  | nil => simp [discover]
  | cons name names ih =>
    have hne : ∀ {seen' : List Bytes} {c : ClassFile.Class}, name ∈ seen' →
        c ∈ (h.discover seen' names).1 → name ≠ c.name := by
      rintro seen' c hseen hc rfl
      exact ((mem_discover h seen' names).mp hc).2.1 hseen
    -- no class of the tail is named like the head, so all its places move by one
    have hmove : ∀ seen', name ∈ seen' →
        (h.discover seen' names).1.Pairwise fun c d =>
          (name :: names).idxOf c.name < (name :: names).idxOf d.name := by
      intro seen' hseen
      refine (ih seen').imp_of_mem ?_
      intro c d hc hd hlt
      rw [List.idxOf_cons_ne _ (hne hseen hc), List.idxOf_cons_ne _ (hne hseen hd)]
      exact Nat.succ_lt_succ hlt
    by_cases hname : name ∈ seen
    · rw [discover_cons_of_mem h names hname]
      exact hmove seen hname
    · rw [discover_cons_of_not_mem h names hname]
      have htail := hmove (name :: seen) List.mem_cons_self
      cases hfind : h.find? name with
      | none => exact htail
      | some c =>
        refine List.pairwise_cons.mpr ⟨?_, htail⟩
        intro d hd
        rw [name_of_find? hfind, List.idxOf_cons_self,
          List.idxOf_cons_ne _ (hne List.mem_cons_self hd)]
        exact Nat.succ_pos _

end

/-- The next level of a walk and the names seen then. -/
def expand (h : Hierarchy) (s : List ClassFile.Class × List Bytes) :
    List ClassFile.Class × List Bytes :=
  h.discover s.2 (s.1.flatMap (·.interfaces))

/-- The levels of a walk are found one after the other, and behind an empty one there are none. -/
theorem interfaceLevels_eq (bound : Nat) (seen : List Bytes) (level : List ClassFile.Class) :
    h.interfaceLevels bound seen level =
      (List.range bound).flatMap fun k => (h.expand^[k + 1] (level, seen)).1 := by
  induction bound generalizing seen level with
  | zero => rfl
  | succ bound ih =>
    have hnext : ∀ s : List ClassFile.Class × List Bytes,
        (List.range (bound + 1)).flatMap (fun k => (h.expand^[k + 1] s).1) =
          (h.expand s).1 ++ h.interfaceLevels bound (h.expand s).2 (h.expand s).1 := by
      intro s
      rw [ih, List.range_succ_eq_map, List.flatMap_cons, List.flatMap_map]
      rfl
    rw [hnext, interfaceLevels]
    split
    · rename_i hempty
      obtain rfl := List.isEmpty_iff.mp hempty
      cases bound <;> rfl
    · rfl

/-- What a walk knows after `k` levels: the classes at this distance and the names of those that
are no further away. Names of unknown classes do not matter. -/
structure Stage (h : Hierarchy) (sources : List ClassFile.Class) (k : Nat)
    (s : List ClassFile.Class × List Bytes) : Prop where
  /-- The last level holds the classes at this distance. -/
  mem_level : ∀ c, c ∈ s.1 ↔ h.Distance sources c k
  /-- Of the known classes those were seen that are no further away. -/
  mem_seen : ∀ c, h.find? c.name = some c → (c.name ∈ s.2 ↔ h.Within sources k c)

/-- The interfaces of a level are mentioned by the classes of that level. -/
theorem Stage.mem_mentions {k : Nat} {s : List ClassFile.Class × List Bytes}
    (hs : h.Stage sources k s) {c : ClassFile.Class} (hc : h.find? c.name = some c) :
    c.name ∈ s.1.flatMap (·.interfaces) ↔ ∃ d, h.Distance sources d k ∧ h.Implements d c := by
  rw [List.mem_flatMap]
  constructor
  · rintro ⟨d, hd, hname⟩
    exact ⟨d, (hs.mem_level d).mp hd, c.name, hname, hc⟩
  · rintro ⟨d, hd, name, hname, hfind⟩
    exact ⟨d, (hs.mem_level d).mpr hd, name_of_find? hfind ▸ hname⟩

/-- One more level keeps what a walk knows. -/
theorem Stage.expand {k : Nat} {s : List ClassFile.Class × List Bytes} (hs : h.Stage sources k s) :
    h.Stage sources (k + 1) (h.expand s) where
  mem_level := by
    intro c
    rw [Hierarchy.expand, mem_discover, distance_succ_iff, within_succ_iff]
    constructor
    · rintro ⟨hmention, hseen, hc⟩
      exact ⟨.inr ((hs.mem_mentions hc).mp hmention),
        fun hnear => hseen ((hs.mem_seen c hc).mpr hnear)⟩
    · rintro ⟨hreach, hfar⟩
      obtain ⟨d, hd, himpl⟩ := hreach.resolve_left hfar
      have hc := himpl.find?_name
      exact ⟨(hs.mem_mentions hc).mpr ⟨d, hd, himpl⟩,
        fun hseen => hfar ((hs.mem_seen c hc).mp hseen), hc⟩
  mem_seen := by
    intro c hc
    rw [Hierarchy.expand, mem_seen_discover, hs.mem_seen c hc, hs.mem_mentions hc, within_succ_iff]

/-- From the sources each expansion leads one stage further. -/
theorem Stage.iterate {seen : List Bytes} (hs : h.Stage sources 0 (sources, seen)) (k : Nat) :
    h.Stage sources k (h.expand^[k] (sources, seen)) := by
  induction k with
  | zero => exact hs
  | succ k ih =>
    rw [Function.iterate_succ_apply']
    exact ih.expand

/-- The number of classes whose names were not seen. -/
def unseen (h : Hierarchy) (seen : List Bytes) : Nat :=
  h.classes.countP fun c => !seen.contains c.name

/-- There are no more unseen names than classes. -/
theorem unseen_le_size (seen : List Bytes) : h.unseen seen ≤ h.size :=
  List.countP_le_length

/-- Every known class that is seen for the first time leaves one class less. -/
theorem unseen_lt {seen seen' : List Bytes} (hsub : ∀ name ∈ seen, name ∈ seen') {name : Bytes}
    {c : ClassFile.Class} (hc : h.find? name = some c) (hnew : name ∉ seen) (hname : name ∈ seen') :
    h.unseen seen' < h.unseen seen := by
  have hmem : c ∈ h.classes := List.mem_of_find?_eq_some hc
  obtain ⟨before, after, hsplit⟩ := List.append_of_mem hmem
  have hle : ∀ l : List ClassFile.Class,
      l.countP (fun d => !seen'.contains d.name) ≤ l.countP (fun d => !seen.contains d.name) := by
    intro l
    refine List.countP_mono_left ?_
    intro d _ hd
    simp only [Bool.not_eq_true', List.contains_eq_mem, decide_eq_false_iff_not] at hd ⊢
    exact fun hin => hd (hsub _ hin)
  have hcname := name_of_find? hc
  have hfalse : seen.contains name = false := by simpa using hnew
  have htrue : seen'.contains name = true := by simpa using hname
  simp only [unseen, hsplit, List.countP_append, List.countP_cons, hcname, hfalse, htrue,
    Bool.not_true, Bool.not_false, Bool.false_eq_true, if_true, if_false]
  have hbefore := hle before
  have hafter := hle after
  omega

/-- A level that is not empty follows a level that is not empty. -/
theorem expand_eq_nil {s : List ClassFile.Class × List Bytes} (hs : s.1 = []) :
    (h.expand s).1 = [] := by
  rw [expand, hs]
  rfl

/-- Every level takes classes that were not seen, so there are no more levels than classes. -/
theorem unseen_add_le {s : List ClassFile.Class × List Bytes} {k : Nat}
    (hk : (h.expand^[k] s).1 ≠ []) :
    h.unseen (h.expand^[k] s).2 + k ≤ h.unseen s.2 := by
  induction k with
  | zero => exact le_rfl
  | succ k ih =>
    rw [Function.iterate_succ_apply'] at hk ⊢
    have hlast := ih fun hnil => hk (expand_eq_nil hnil)
    obtain ⟨c, hc⟩ := List.exists_mem_of_ne_nil _ hk
    obtain ⟨hmention, hnew, hfind⟩ := (mem_discover h _ _).mp hc
    have hlt : h.unseen (h.expand (h.expand^[k] s)).2 < h.unseen (h.expand^[k] s).2 := by
      refine unseen_lt (fun name hname => ?_) hfind hnew ?_
      · exact (mem_seen_discover h _ _).mpr (.inl hname)
      · exact (mem_seen_discover h _ _).mpr (.inr hmention)
    omega

/-- After more expansions than there are classes nothing new is found. -/
theorem iterate_expand_eq_nil {s : List ClassFile.Class × List Bytes} {k : Nat} (hk : h.size < k) :
    (h.expand^[k] s).1 = [] := by
  by_contra hne
  have hle := unseen_add_le hne
  have hsize := unseen_le_size (h := h) s.2
  omega

end ReturnAudit.Hierarchy
