import ReturnAudit.Proofs.Hierarchy.InterfaceLevels
import Mathlib.Data.List.Nodup

/-!
# The ancestors of a class

The ancestors of a class are the chain of the classes it extends and then, level by level, what
their interfaces lead to. The chain ends where a name is empty, unknown or repeated, and a level
holds the classes at one distance from the chain. Neither cycles nor unknown classes matter: every
class that can be reached is there once, and the class itself is not.
-/

namespace ReturnAudit.Hierarchy

variable {h : Hierarchy}

/-- Whether a class extends the other one. -/
def Extends (h : Hierarchy) (c d : ClassFile.Class) : Prop :=
  c.super ≠ [] ∧ h.find? c.super = some d

/-- Whether some classes are the ones that `start` extends, nearest first, as far as there is a
known class whose name was not seen. -/
structure Superclasses (h : Hierarchy) (seen : List Bytes) (start : ClassFile.Class)
    (chain : List ClassFile.Class) : Prop where
  /-- Each class extends the next one. -/
  linked : (start :: chain).IsChain h.Extends
  /-- No name occurs twice. -/
  nodup : (chain.map (·.name)).Nodup
  /-- No name was seen before. -/
  fresh : ∀ c ∈ chain, c.name ∉ seen
  /-- The last class extends none, an unknown one or one whose name was seen. -/
  ends : ∀ last ∈ (start :: chain).getLast?,
    last.super = [] ∨ h.find? last.super = none ∨ last.super ∈ seen ∨
      last.super ∈ chain.map (·.name)

/-- A chain that ends at once. -/
theorem Superclasses.nil {seen : List Bytes} {c : ClassFile.Class}
    (hends : c.super = [] ∨ h.find? c.super = none ∨ c.super ∈ seen) :
    h.Superclasses seen c [] where
  linked := .singleton c
  nodup := .nil
  fresh := by simp
  ends := by
    intro last hlast
    cases hlast
    rcases hends with hempty | hnone | hseen
    · exact .inl hempty
    · exact .inr (.inl hnone)
    · exact .inr (.inr (.inl hseen))

/-- A chain goes on behind a class whose name was not seen. -/
theorem Superclasses.cons {seen : List Bytes} {c next : ClassFile.Class}
    {chain : List ClassFile.Class} (hextends : h.Extends c next) (hnew : c.super ∉ seen)
    (hchain : h.Superclasses (c.super :: seen) next chain) :
    h.Superclasses seen c (next :: chain) := by
  have hname := name_of_find? hextends.2
  refine ⟨.cons_cons hextends hchain.linked, ?_, ?_, ?_⟩
  · rw [List.map_cons, List.nodup_cons]
    refine ⟨?_, hchain.nodup⟩
    intro hmem
    obtain ⟨d, hd, hdname⟩ := List.mem_map.mp hmem
    exact hchain.fresh d hd (by rw [hdname, hname]; exact List.mem_cons_self)
  · intro d hd
    rcases List.mem_cons.mp hd with rfl | hd
    · exact hname ▸ hnew
    · exact fun hseen => hchain.fresh d hd (List.mem_cons_of_mem _ hseen)
  · intro last hlast
    rw [List.getLast?_cons_cons] at hlast
    rcases hchain.ends last hlast with hempty | hnone | hseen | hrest
    · exact .inl hempty
    · exact .inr (.inl hnone)
    · rw [List.map_cons, hname]
      rcases List.mem_cons.mp hseen with heq | hseen
      · exact .inr (.inr (.inr (heq ▸ List.mem_cons_self)))
      · exact .inr (.inr (.inl hseen))
    · exact .inr (.inr (.inr (List.mem_cons_of_mem _ hrest)))

/-- With a bound above the number of classes that were not seen, the chain goes on to its end, and
the known names seen then are those of the chain. -/
theorem superChain_spec {bound : Nat} {seen : List Bytes} {c : ClassFile.Class}
    (hbound : h.unseen seen < bound) :
    h.Superclasses seen c (h.superChain bound seen c).1 ∧
      ∀ name, (h.find? name).isSome →
        (name ∈ (h.superChain bound seen c).2 ↔
          name ∈ seen ∨ name ∈ (h.superChain bound seen c).1.map (·.name)) := by
  induction bound generalizing seen c with
  | zero => exact absurd hbound (Nat.not_lt_zero _)
  | succ bound ih =>
    rw [superChain]
    split
    · rename_i hstop
      simp only [Bool.or_eq_true, List.isEmpty_iff, List.contains_iff_mem] at hstop
      refine ⟨.nil (hstop.imp_right .inr), ?_⟩
      simp
    · rename_i hgo
      simp only [Bool.or_eq_true, List.isEmpty_iff, List.contains_iff_mem, not_or] at hgo
      cases hfind : h.find? c.super with
      | none =>
        refine ⟨.nil (.inr (.inl hfind)), ?_⟩
        intro name hname
        have hne : name ≠ c.super := by
          rintro rfl
          rw [hfind] at hname
          cases hname
        simp [hne]
      | some next =>
        have hless : h.unseen (c.super :: seen) < bound := by
          have hlt := unseen_lt (fun _ => List.mem_cons_of_mem c.super) hfind hgo.2
            List.mem_cons_self
          omega
        obtain ⟨hchain, hseen⟩ := ih (c := next) hless
        refine ⟨.cons ⟨hgo.1, hfind⟩ hgo.2 hchain, ?_⟩
        intro name hname
        simp only [hseen name hname, List.mem_cons, List.map_cons, name_of_find? hfind]
        rw [or_assoc, or_left_comm]

/-- The classes of a chain are known. -/
theorem Superclasses.find?_name {seen : List Bytes} {start : ClassFile.Class}
    {chain : List ClassFile.Class} (hchain : h.Superclasses seen start chain)
    {c : ClassFile.Class} (hc : c ∈ chain) :
    h.find? c.name = some c := by
  have hlinked := hchain.linked
  clear hchain
  induction chain generalizing start with
  | nil => cases hc
  | cons next chain ih =>
    rw [List.isChain_cons_cons] at hlinked
    rcases List.mem_cons.mp hc with rfl | hc
    · exact Hierarchy.find?_name hlinked.1.2
    · exact ih hc hlinked.2

/-- Whether the levels hold what the interfaces of some classes lead to, one distance after the
other. -/
structure Levels (h : Hierarchy) (sources : List ClassFile.Class)
    (level : Nat → List ClassFile.Class) : Prop where
  /-- The walk starts from the sources. -/
  zero : level 0 = sources
  /-- Each later level holds the known classes at its distance. -/
  mem_iff : ∀ k c, c ∈ level (k + 1) ↔
    h.find? c.name = some c ∧ c ∉ sources ∧ h.Distance sources c (k + 1)
  /-- Its classes stand in the order in which the level before first mentions them. -/
  ordered : ∀ k, (level (k + 1)).Pairwise fun c d =>
    ((level k).flatMap (·.interfaces)).idxOf c.name <
      ((level k).flatMap (·.interfaces)).idxOf d.name

/-- The stages of a walk give its levels. -/
theorem levels_of_stage {sources : List ClassFile.Class} {seen : List Bytes}
    (hs : h.Stage sources 0 (sources, seen)) :
    h.Levels sources fun k => (h.expand^[k] (sources, seen)).1 where
  zero := rfl
  mem_iff := by
    intro k c
    rw [(hs.iterate (k + 1)).mem_level]
    constructor
    · intro hdist
      refine ⟨?_, ?_, hdist⟩
      · obtain ⟨⟨s, _, hpath⟩, _⟩ := hdist
        cases hpath with
        | step _ himpl => exact himpl.find?_name
      · intro hc
        have hle : k + 1 ≤ 0 := hdist.2 ⟨c, hc, .refl c⟩
        omega
    · exact fun hc => hc.2.2
  ordered := by
    intro k
    simp only [Function.iterate_succ_apply']
    exact ordered_discover h _ _

namespace Levels

variable {sources : List ClassFile.Class} {level : Nat → List ClassFile.Class}

/-- No class is in two levels. -/
theorem eq_of_mem (hlevel : h.Levels sources level) {k k' : Nat} {c : ClassFile.Class}
    (hc : c ∈ level (k + 1)) (hc' : c ∈ level (k' + 1)) : k = k' := by
  have hdist := ((hlevel.mem_iff k c).mp hc).2.2
  have hdist' := ((hlevel.mem_iff k' c).mp hc').2.2
  have heq := hdist.unique hdist'
  omega

/-- A level holds each class once. -/
theorem nodup (hlevel : h.Levels sources level) (k : Nat) : (level (k + 1)).Nodup :=
  (hlevel.ordered k).imp fun hlt heq => absurd hlt (by rw [heq]; exact lt_irrefl _)

/-- The levels together hold no class twice. -/
theorem nodup_flatMap (hlevel : h.Levels sources level) (count : Nat) :
    ((List.range count).flatMap fun k => level (k + 1)).Nodup := by
  rw [List.nodup_flatMap]
  refine ⟨fun k _ => hlevel.nodup k, ?_⟩
  refine List.nodup_range.imp ?_
  intro k k' hne c hc hc'
  exact hne (hlevel.eq_of_mem hc hc')

/-- Once the levels are empty, what they hold together is what can be reached. -/
theorem mem_flatMap_iff (hlevel : h.Levels sources level) {count : Nat}
    (hempty : ∀ k, count < k → level k = []) {c : ClassFile.Class} (hc : c ∉ sources) :
    (c ∈ (List.range count).flatMap fun k => level (k + 1)) ↔
      ∃ s ∈ sources, ∃ n, h.InterfacePath n s c := by
  rw [List.mem_flatMap]
  constructor
  · rintro ⟨k, _, hk⟩
    obtain ⟨-, -, ⟨s, hs, hpath⟩, -⟩ := (hlevel.mem_iff k c).mp hk
    exact ⟨s, hs, k + 1, hpath⟩
  · rintro ⟨s, hs, n, hpath⟩
    obtain ⟨k, hk⟩ := exists_distance hs hpath
    cases k with
    | zero => exact absurd (distance_zero_iff.mp hk) hc
    | succ k =>
      obtain ⟨t, _, hlast⟩ := hk.1
      have hmem : c ∈ level (k + 1) := by
        cases hlast with
        | step _ himpl => exact (hlevel.mem_iff k c).mpr ⟨himpl.find?_name, hc, hk⟩
      refine ⟨k, ?_, hmem⟩
      rw [List.mem_range]
      by_contra hge
      rw [hempty (k + 1) (by omega)] at hmem
      cases hmem

end Levels

/-- Before any level is found, what was seen is the class with its chain. -/
theorem stage_zero {name : Bytes} {start : ClassFile.Class} {chain : List ClassFile.Class}
    {seen : List Bytes}
    (hstart : h.find? name = some start) (hchain : h.Superclasses [name] start chain)
    (hseen : ∀ n, (h.find? n).isSome → (n ∈ seen ↔ n ∈ [name] ∨ n ∈ chain.map (·.name))) :
    h.Stage (start :: chain) 0 (start :: chain, seen) where
  mem_level := fun c => distance_zero_iff.symm
  mem_seen := by
    intro c hc
    have hname := name_of_find? hstart
    rw [hseen c.name (by rw [hc]; rfl), within_zero_iff, List.mem_singleton, List.mem_cons]
    refine or_congr ⟨?_, ?_⟩ ⟨?_, ?_⟩
    · intro heq
      rw [heq, hstart] at hc
      exact (Option.some.inj hc).symm
    · rintro rfl
      exact hname
    · intro hmem
      obtain ⟨d, hd, hdname⟩ := List.mem_map.mp hmem
      have hfind := hchain.find?_name hd
      rw [hdname, hc] at hfind
      exact Option.some.inj hfind ▸ hd
    · exact fun hmem => List.mem_map.mpr ⟨c, hmem, rfl⟩

/-- The ancestors of a known class: a chain and the levels that start from it. -/
theorem exists_ancestors_eq {name : Bytes} {start : ClassFile.Class}
    (hstart : h.find? name = some start) :
    ∃ chain level, h.Superclasses [name] start chain ∧ h.Levels (start :: chain) level ∧
      (∀ k, h.size < k → level k = []) ∧
      h.ancestors name = chain ++ (List.range (h.size + 1)).flatMap fun k => level (k + 1) := by
  have hbound : h.unseen [name] < h.size + 1 := Nat.lt_succ_of_le (unseen_le_size _)
  obtain ⟨hchain, hseen⟩ := superChain_spec (c := start) hbound
  refine ⟨_, _, hchain, levels_of_stage (stage_zero hstart hchain hseen),
    fun k hk => iterate_expand_eq_nil hk, ?_⟩
  simp only [ancestors, hstart, interfaceLevels_eq]

section

variable {name : Bytes} {start : ClassFile.Class} {chain : List ClassFile.Class}
  {level : Nat → List ClassFile.Class}
  (hstart : h.find? name = some start) (hchain : h.Superclasses [name] start chain)
  (hlevel : h.Levels (start :: chain) level) (count : Nat)
include hchain hlevel

/-- The classes of a chain and its levels are known. -/
theorem find?_name_of_mem_walk {c : ClassFile.Class}
    (hc : c ∈ chain ++ (List.range count).flatMap fun k => level (k + 1)) :
    h.find? c.name = some c := by
  rcases List.mem_append.mp hc with hc | hc
  · exact hchain.find?_name hc
  · obtain ⟨k, _, hk⟩ := List.mem_flatMap.mp hc
    exact ((hlevel.mem_iff k c).mp hk).1

/-- No name occurs twice, because a known class is told by its name. -/
theorem nodup_walk :
    ((chain ++ (List.range count).flatMap fun k => level (k + 1)).map (·.name)).Nodup := by
  have hdisjoint : chain.Disjoint ((List.range count).flatMap fun k => level (k + 1)) := by
    intro c hc hc'
    obtain ⟨k, _, hk⟩ := List.mem_flatMap.mp hc'
    exact ((hlevel.mem_iff k c).mp hk).2.1 (List.mem_cons_of_mem _ hc)
  refine (hchain.nodup.of_map.append (hlevel.nodup_flatMap count) hdisjoint).map_on ?_
  intro c hc d hd heq
  have hfind := find?_name_of_mem_walk hchain hlevel count hc
  rw [heq, find?_name_of_mem_walk hchain hlevel count hd] at hfind
  exact (Option.some.inj hfind).symm

include hstart

/-- The class from which the walk starts does not occur. -/
theorem name_ne_of_mem_walk {c : ClassFile.Class}
    (hc : c ∈ chain ++ (List.range count).flatMap fun k => level (k + 1)) : c.name ≠ name := by
  intro heq
  rcases List.mem_append.mp hc with hmem | hmem
  · exact hchain.fresh c hmem (List.mem_singleton.mpr heq)
  · obtain ⟨k, _, hk⟩ := List.mem_flatMap.mp hmem
    obtain ⟨hfind, hnot, _⟩ := (hlevel.mem_iff k c).mp hk
    rw [heq, hstart] at hfind
    exact hnot (Option.some.inj hfind ▸ List.mem_cons_self)

/-- Every other class occurs if it is in the chain or can be reached. -/
theorem mem_walk_iff (hempty : ∀ k, count < k → level k = []) {c : ClassFile.Class}
    (hne : c.name ≠ name) :
    (c ∈ chain ++ (List.range count).flatMap fun k => level (k + 1)) ↔
      c ∈ chain ∨ ∃ s ∈ start :: chain, ∃ n, h.InterfacePath n s c := by
  rw [List.mem_append]
  by_cases hc : c ∈ chain
  · exact iff_of_true (.inl hc) (.inl hc)
  · have hnot : c ∉ start :: chain := by
      rw [List.mem_cons, not_or]
      refine ⟨?_, hc⟩
      rintro rfl
      exact hne (name_of_find? hstart)
    rw [hlevel.mem_flatMap_iff hempty hnot]

end

/-- The ancestors of a class are the chain of the classes it extends, followed by the levels of
what these and the class itself reach over interfaces. No class occurs twice, the class itself does
not occur, and any other class occurs if it is in the chain or can be reached. An unknown class has
no ancestors. -/
theorem ancestors_eq_chain_append_levels (h : Hierarchy) (name : Bytes) :
    (h.find? name = none → h.ancestors name = []) ∧
    ∀ start, h.find? name = some start →
      ∃ (chain : List ClassFile.Class) (level : Nat → List ClassFile.Class) (count : Nat),
        h.Superclasses [name] start chain ∧
        h.Levels (start :: chain) level ∧
        (∀ k, count < k → level k = []) ∧
        h.ancestors name = chain ++ (List.range count).flatMap (fun k => level (k + 1)) ∧
        ((h.ancestors name).map (·.name)).Nodup ∧
        (∀ c ∈ h.ancestors name, c.name ≠ name) ∧
        ∀ c, c.name ≠ name → (c ∈ h.ancestors name ↔
          c ∈ chain ∨ ∃ s ∈ start :: chain, ∃ n, h.InterfacePath n s c) := by
  refine ⟨fun hnone => by rw [ancestors, hnone], ?_⟩
  intro start hstart
  obtain ⟨chain, level, hchain, hlevel, hempty, heq⟩ := exists_ancestors_eq hstart
  have hend : ∀ k, h.size + 1 < k → level k = [] := fun k hk => hempty k (by omega)
  refine ⟨chain, level, h.size + 1, hchain, hlevel, hend, heq, ?_, ?_, ?_⟩
  · rw [heq]
    exact nodup_walk hchain hlevel _
  · intro c hc
    exact name_ne_of_mem_walk hstart hchain hlevel _ (heq ▸ hc)
  · intro c hne
    rw [heq]
    exact mem_walk_iff hstart hchain hlevel _ hend hne

/-- A class with only what a hierarchy looks at. -/
def outline (name super : String) (interfaces : List String) : ClassFile.Class :=
  ⟨52, 0, 0, name, super, interfaces.map Bytes.ofString, [], [], [], [], ⟨#[]⟩⟩

/-- A class that names an interface that is not known. -/
def knot : ClassFile.Class := outline "A" "B" ["J", "X"]

/-- Two classes that extend each other, an interface that names itself and another one that leads
back to the start. -/
def tangle : Hierarchy :=
  .ofClasses [knot, outline "B" "A" ["I"], outline "I" "I" ["L", "A"],
    outline "J" "" ["J", "L", "I"], outline "L" "" ["B"]]

/-- The walk through a tangle comes to an end with every class but the first, once. -/
theorem ancestors_tangle :
    tangle.find? "A" = some knot ∧
    (tangle.ancestors "A").map (·.name) = (["B", "J", "I", "L"] : List String).map Bytes.ofString ∧
    ∃ chain : List ClassFile.Class, tangle.Superclasses ["A"] knot chain ∧
      ∀ c, c.name ≠ ("A" : Bytes) → (c ∈ tangle.ancestors "A" ↔
        c ∈ chain ∨ ∃ s ∈ knot :: chain, ∃ n, tangle.InterfacePath n s c) := by
  have hknot : tangle.find? "A" = some knot := rfl
  obtain ⟨chain, -, -, hchain, -, -, -, -, -, hmem⟩ :=
    (ancestors_eq_chain_append_levels tangle "A").2 knot hknot
  exact ⟨hknot, by decide +kernel, chain, hchain, hmem⟩

end ReturnAudit.Hierarchy
