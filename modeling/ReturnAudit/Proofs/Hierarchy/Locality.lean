import ReturnAudit.Obligation.Resolve
import ReturnAudit.Proofs.Hierarchy.Ancestors

/-!
# What a walk does not look at

A hierarchy keeps the first class of each name, and a walk from a class looks up the class itself
and the names that it and its ancestors mention, and nothing else. Two hierarchies in which the same
is found under these names give the same ancestors, whatever else is in them and however large they
are. So the order of the classes and the repeated names are lost, and classes can be inserted into a
list anywhere as long as none of them comes first under such a name.
-/

namespace ReturnAudit

/-- Dropping repeated names changes nothing that is found under a name not seen before. -/
theorem find?_firstOfEachName (seen : List Bytes) (l : List ClassFile.Class) (name : Bytes) :
    (firstOfEachName seen l).find? (fun c => c.name = name) =
      if name ∈ seen then none else l.find? (fun c => c.name = name) := by
  induction l generalizing seen with
  | nil => simp [firstOfEachName]
  | cons c l ih =>
    by_cases hc : c.name ∈ seen
    · simp only [firstOfEachName, List.contains_iff_mem.mpr hc, ite_true, ih]
      by_cases hn : name ∈ seen
      · simp only [hn, ite_true]
      · have hne : c.name ≠ name := fun heq => hn (heq ▸ hc)
        simp only [hn, ite_false, List.find?_cons, hne, decide_false]
    · have hnot : seen.contains c.name = false := by simpa using hc
      simp only [firstOfEachName, hnot, Bool.false_eq_true, ite_false, List.find?_cons, ih,
        List.mem_cons]
      by_cases heq : c.name = name
      · simp only [← heq, hc, decide_true, ite_false]
      · simp only [heq, Ne.symm heq, decide_false, false_or]

/-- The names that a class mentions: that of the class it extends, if it extends one, and those of
its interfaces. -/
def mentions (c : ClassFile.Class) : List Bytes :=
  (if c.super = [] then [] else [c.super]) ++ c.interfaces

/-- A class mentions the class it extends. -/
theorem super_mem_mentions {c : ClassFile.Class} (hne : c.super ≠ []) : c.super ∈ mentions c := by
  rw [mentions, if_neg hne]
  exact List.mem_cons_self

/-- A class mentions its interfaces. -/
theorem mem_mentions_of_interface {c : ClassFile.Class} {name : Bytes} (h : name ∈ c.interfaces) :
    name ∈ mentions c :=
  List.mem_append_right _ h

namespace Hierarchy

variable {h h' : Hierarchy}

/-- The class of a name is the first one in the list. -/
theorem find?_ofClasses (l : List ClassFile.Class) (name : Bytes) :
    (ofClasses l).find? name = l.find? fun c => c.name = name := by
  simp only [ofClasses, find?, find?_firstOfEachName, List.not_mem_nil, ite_false]

/-- The name of the class that a walk starts from, and the names that this class and its ancestors
mention. -/
def explored (h : Hierarchy) (owner : Bytes) : List Bytes :=
  owner :: ((h.find? owner).toList ++ h.ancestors owner).flatMap mentions

/-- A bound above the number of classes that were not seen does not cut a chain off. -/
theorem superChain_of_le {bound bound' : Nat} {seen : List Bytes} {c : ClassFile.Class}
    (hbound : h.unseen seen < bound) (hle : bound ≤ bound') :
    h.superChain bound' seen c = h.superChain bound seen c := by
  induction bound generalizing bound' seen c with
  | zero => exact absurd hbound (Nat.not_lt_zero _)
  | succ bound ih =>
    obtain ⟨bound', rfl⟩ : ∃ n, bound' = n + 1 := ⟨bound' - 1, by omega⟩
    rw [superChain, superChain]
    split
    · rfl
    · next hgo =>
      simp only [Bool.or_eq_true, List.isEmpty_iff, List.contains_iff_mem, not_or] at hgo
      cases hfind : h.find? c.super with
      | none => rfl
      | some next =>
        have hlt := unseen_lt (fun _ => List.mem_cons_of_mem c.super) hfind hgo.2
          List.mem_cons_self
        have hrest := ih (c := next) (hlt.trans_le (Nat.le_of_lt_succ hbound))
          (Nat.le_of_succ_le_succ hle)
        simp only [hrest]

/-- Chains stay together as long as the same is found under the names that the classes extend. -/
theorem superChain_agree {bound : Nat} {seen : List Bytes} {c : ClassFile.Class}
    (hagree : ∀ d ∈ c :: (h.superChain bound seen c).1, d.super ≠ [] →
      h'.find? d.super = h.find? d.super) :
    h'.superChain bound seen c = h.superChain bound seen c := by
  induction bound generalizing seen c with
  | zero => rfl
  | succ bound ih =>
    rw [superChain] at hagree ⊢
    rw [superChain]
    split
    · rfl
    · next hgo =>
      rw [if_neg hgo] at hagree
      simp only [Bool.or_eq_true, List.isEmpty_iff, not_or] at hgo
      rw [hagree c List.mem_cons_self hgo.1]
      cases hfind : h.find? c.super with
      | none => rfl
      | some next =>
        rw [hfind] at hagree
        simp only [ih fun d hd => hagree d (List.mem_cons_of_mem _ hd)]

/-- The bounds of two hierarchies do not matter for chains that stay together. -/
theorem superChain_size_agree {seen : List Bytes} {c : ClassFile.Class}
    (hagree : ∀ d ∈ c :: (h.superChain (h.size + 1) seen c).1, d.super ≠ [] →
      h'.find? d.super = h.find? d.super) :
    h'.superChain (h'.size + 1) seen c = h.superChain (h.size + 1) seen c := by
  have hbound : h.unseen seen < h.size + 1 := Nat.lt_succ_of_le (unseen_le_size _)
  have hbound' : h'.unseen seen < h'.size + 1 := Nat.lt_succ_of_le (unseen_le_size _)
  rcases le_total h.size h'.size with hle | hle
  · rw [← superChain_of_le hbound (Nat.succ_le_succ hle)] at hagree ⊢
    exact superChain_agree hagree
  · rw [← superChain_of_le hbound' (Nat.succ_le_succ hle)]
    exact superChain_agree hagree

/-- Hierarchies that find the same under some names discover the same under them. -/
theorem discover_agree {seen names : List Bytes}
    (hagree : ∀ name ∈ names, h'.find? name = h.find? name) :
    h'.discover seen names = h.discover seen names := by
  induction names generalizing seen with
  | nil => rfl
  | cons name names ih =>
    rw [List.forall_mem_cons] at hagree
    simp only [discover, hagree.1, ih hagree.2]

/-- Levels stay together as long as the same is found under the names of the interfaces. -/
theorem iterate_expand_agree {s : List ClassFile.Class × List Bytes}
    (hagree : ∀ k, ∀ c ∈ (h.expand^[k] s).1, ∀ name ∈ c.interfaces,
      h'.find? name = h.find? name) (k : Nat) :
    h'.expand^[k] s = h.expand^[k] s := by
  induction k with
  | zero => rfl
  | succ k ih =>
    rw [Function.iterate_succ_apply', Function.iterate_succ_apply', ih, expand, expand]
    refine discover_agree ?_
    intro name hname
    obtain ⟨c, hc, hmention⟩ := List.mem_flatMap.mp hname
    exact hagree k c hc name hmention

/-- Further levels behind the last class are empty. -/
theorem flatMap_range_of_le {α : Type} {f : Nat → List α} {n m : Nat} (hle : n ≤ m)
    (hempty : ∀ k, n ≤ k → f k = []) : (List.range m).flatMap f = (List.range n).flatMap f := by
  obtain ⟨d, rfl⟩ := Nat.exists_eq_add_of_le hle
  have hnil : ((List.range d).map (n + ·)).flatMap f = [] := by
    rw [List.flatMap_eq_nil_iff]
    intro k hk
    obtain ⟨i, -, rfl⟩ := List.mem_map.mp hk
    exact hempty (n + i) (Nat.le_add_right n i)
  rw [List.range_add, List.flatMap_append, hnil, List.append_nil]

/-- The bounds of two hierarchies do not matter for levels that stay together. -/
theorem interfaceLevels_size_agree {seen : List Bytes} {level : List ClassFile.Class}
    (hagree : ∀ k, ∀ c ∈ (h.expand^[k] (level, seen)).1, ∀ name ∈ c.interfaces,
      h'.find? name = h.find? name) :
    h'.interfaceLevels (h'.size + 1) seen level = h.interfaceLevels (h.size + 1) seen level := by
  have hsame := iterate_expand_agree hagree
  simp only [interfaceLevels_eq, hsame]
  rcases le_total h.size h'.size with hle | hle
  · refine flatMap_range_of_le (Nat.succ_le_succ hle) ?_
    exact fun k hk => iterate_expand_eq_nil (by omega)
  · refine (flatMap_range_of_le (Nat.succ_le_succ hle) ?_).symm
    intro k hk
    rw [← hsame]
    exact iterate_expand_eq_nil (by omega)

/-- Hierarchies in which the same is found under the explored names give the same ancestors. -/
theorem ancestors_agree {owner : Bytes}
    (hagree : ∀ name ∈ h.explored owner, h'.find? name = h.find? name) :
    h'.ancestors owner = h.ancestors owner := by
  have howner : h'.find? owner = h.find? owner := hagree owner List.mem_cons_self
  cases hstart : h.find? owner with
  | none => rw [ancestors, ancestors, howner, hstart]
  | some start =>
    -- whatever is looked up is mentioned by the class or by one of its ancestors
    have hmentions : ∀ c ∈ start :: h.ancestors owner, ∀ name ∈ mentions c,
        h'.find? name = h.find? name := by
      intro c hc name hname
      refine hagree name (List.mem_cons_of_mem _ (List.mem_flatMap.mpr ⟨c, ?_, hname⟩))
      rw [hstart]
      exact hc
    have hsplit : h.ancestors owner = (h.superChain (h.size + 1) [owner] start).1 ++
        h.interfaceLevels (h.size + 1) (h.superChain (h.size + 1) [owner] start).2
          (start :: (h.superChain (h.size + 1) [owner] start).1) := by
      rw [ancestors, hstart]
    have hchain : h'.superChain (h'.size + 1) [owner] start =
        h.superChain (h.size + 1) [owner] start := by
      refine superChain_size_agree ?_
      intro d hd hne
      refine hmentions d ?_ d.super (super_mem_mentions hne)
      rw [hsplit]
      exact List.cons_subset_cons _ (List.subset_append_left _ _) hd
    have hlevels : h'.interfaceLevels (h'.size + 1) (h.superChain (h.size + 1) [owner] start).2
        (start :: (h.superChain (h.size + 1) [owner] start).1) =
        h.interfaceLevels (h.size + 1) (h.superChain (h.size + 1) [owner] start).2
          (start :: (h.superChain (h.size + 1) [owner] start).1) := by
      refine interfaceLevels_size_agree ?_
      intro k c hc name hname
      refine hmentions c ?_ name (mem_mentions_of_interface hname)
      rw [hsplit]
      cases k with
      | zero => exact List.cons_subset_cons _ (List.subset_append_left _ _) hc
      | succ k =>
        refine List.mem_cons_of_mem _ (List.mem_append_right _ ?_)
        rw [interfaceLevels_eq, List.mem_flatMap]
        refine ⟨k, List.mem_range.mpr ?_, hc⟩
        -- the levels behind those that are collected are empty
        by_contra hge
        rw [iterate_expand_eq_nil (by omega)] at hc
        cases hc
    rw [hsplit, ancestors, howner, hstart]
    simp only [hchain, hlevels]

/-- A class of a list, and whether it was inserted there. -/
structure Entry where
  /-- The class. -/
  item : ClassFile.Class
  /-- Whether it was inserted. -/
  inserted : Bool

/-- The list with the inserted classes. -/
def enlarged (entries : List Entry) : List ClassFile.Class :=
  entries.map Entry.item

/-- The list without the inserted classes. -/
def original (entries : List Entry) : List ClassFile.Class :=
  (entries.filter fun e => !e.inserted).map Entry.item

/-- Under a name where no inserted class comes first, the same is found. -/
theorem find?_enlarged {entries : List Entry} {name : Bytes}
    (h : ∀ before e later, entries = before ++ e :: later → e.inserted = true →
      e.item.name = name → ∃ e' ∈ before, e'.item.name = name) :
    (enlarged entries).find? (fun c => c.name = name) =
      (original entries).find? fun c => c.name = name := by
  induction entries with
  | nil => rfl
  | cons e entries ih =>
    by_cases hname : e.item.name = name
    · have horiginal : e.inserted = false := by
        by_contra hinserted
        obtain ⟨_, hmem, -⟩ := h [] e entries rfl (Bool.eq_true_of_not_eq_false hinserted) hname
        cases hmem
      simp [enlarged, original, horiginal, hname]
    · have hrest := ih fun before e' later hsplit hinserted hname' => by
        obtain ⟨e'', hmem, heq⟩ :=
          h (e :: before) e' later (by rw [hsplit, List.cons_append]) hinserted hname'
        rcases List.mem_cons.mp hmem with rfl | hmem
        · exact absurd heq hname
        · exact ⟨e'', hmem, heq⟩
      rw [enlarged, original] at hrest ⊢
      rw [List.map_cons, List.find?_cons_of_neg (by simpa using hname), hrest, List.filter_cons]
      split
      · rw [List.map_cons, List.find?_cons_of_neg (by simpa using hname)]
      · rfl

end Hierarchy

open Hierarchy

/-- An obligation depends on what is found for the called class and on what it can be inherited
from. -/
theorem Obligation.resolve_congr {h h' : Hierarchy} {options : ObligationOptions} {ref : MethodRef}
    (hfind : h.find? ref.owner = h'.find? ref.owner)
    (hancestors : h.ancestors ref.owner = h'.ancestors ref.owner) :
    Obligation.resolve h options ref = Obligation.resolve h' options ref := by
  have hinherited : inheritedFrom h ref = inheritedFrom h' ref := by
    rw [inheritedFrom, inheritedFrom, hancestors]
  unfold Obligation.resolve
  rw [hfind, hinherited]

/-- Obligations depend on a list of classes only through what is found under each name. -/
theorem Obligation.resolve_ofClasses_congr {l l' : List ClassFile.Class}
    (h : ∀ name, (l.find? fun c => c.name = name) = l'.find? fun c => c.name = name) :
    Obligation.resolve (.ofClasses l) = Obligation.resolve (.ofClasses l') := by
  have hfind : ∀ name, (ofClasses l).find? name = (ofClasses l').find? name := by
    intro name
    rw [find?_ofClasses, find?_ofClasses, h]
  funext options ref
  exact resolve_congr (hfind ref.owner) (ancestors_agree fun name _ => hfind name)

/-- Classes may be inserted into a list anywhere. Where each of them comes behind a class of its
name, or has a name other than that of the called class and other than those that this class and its
ancestors mention, the obligation of a called method and the ancestors of its class stay the
same. -/
theorem resolve_enlarged (entries : List Entry) (options : ObligationOptions) (ref : MethodRef)
    (h : ∀ before e later, entries = before ++ e :: later → e.inserted = true →
      (∃ e' ∈ before, e'.item.name = e.item.name) ∨
        e.item.name ∉ (Hierarchy.ofClasses (original entries)).explored ref.owner) :
    (Hierarchy.ofClasses (enlarged entries)).ancestors ref.owner =
        (Hierarchy.ofClasses (original entries)).ancestors ref.owner ∧
      Obligation.resolve (.ofClasses (enlarged entries)) options ref =
        Obligation.resolve (.ofClasses (original entries)) options ref := by
  have hagree : ∀ name ∈ (Hierarchy.ofClasses (original entries)).explored ref.owner,
      (Hierarchy.ofClasses (enlarged entries)).find? name =
        (Hierarchy.ofClasses (original entries)).find? name := by
    intro name hname
    rw [find?_ofClasses, find?_ofClasses]
    refine find?_enlarged ?_
    rintro before e later hsplit hinserted rfl
    exact (h before e later hsplit hinserted).resolve_right fun hnot => hnot hname
  have hancestors := ancestors_agree hagree
  exact ⟨hancestors, Obligation.resolve_congr (hagree ref.owner List.mem_cons_self) hancestors⟩

/-- A class with an unknown interface and the class it extends. Inserted are a class in front of
both that extends the first, a class behind that has the name of the first, and one more that only
the inserted ones mention. -/
def enlargement : List Entry :=
  [⟨outline "Z" "A" ["Y"], true⟩, ⟨outline "A" "B" ["I"], false⟩, ⟨outline "A" "Y" [], true⟩,
    ⟨outline "B" "" [], false⟩, ⟨outline "Y" "" [], true⟩]

/-- None of the inserted classes is looked at. -/
theorem resolve_enlargement :
    (Hierarchy.ofClasses (enlarged enlargement)).ancestors "A" =
        (Hierarchy.ofClasses (original enlargement)).ancestors "A" ∧
      Obligation.resolve (.ofClasses (enlarged enlargement)) {} ⟨"A", "run", "()I", false⟩ =
        Obligation.resolve (.ofClasses (original enlargement)) {} ⟨"A", "run", "()I", false⟩ := by
  refine resolve_enlarged enlargement {} ⟨"A", "run", "()I", false⟩ ?_
  have hall : ∀ i : Fin enlargement.length, enlargement[i].inserted = true →
      (∃ e' ∈ enlargement.take i, e'.item.name = enlargement[i].item.name) ∨
        enlargement[i].item.name ∉ (Hierarchy.ofClasses (original enlargement)).explored "A" := by
    decide +kernel
  intro before e later hsplit
  have hlt : before.length < enlargement.length := by simp [hsplit]
  have he : enlargement[before.length] = e := by simp [hsplit]
  have hbefore : enlargement.take before.length = before := by simp [hsplit]
  have hplace := hall ⟨before.length, hlt⟩
  simp only [Fin.getElem_fin, he, hbefore] at hplace
  exact hplace

end ReturnAudit
