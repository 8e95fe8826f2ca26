import Mathlib.Data.Prod.Lex
import ReturnAudit.Proofs.ClassPath.Loading

/-!
# Where classes stand on a class path

A class stands at a site: in which element of the class path, in which file of the element, at which
entry of the file. Sites are ordered by element, file and entry in turn, and in this order the
classes of a class path follow one another.
-/

namespace ReturnAudit.ClassPath

variable {archives : Archive.Reader}

/-! ## Places in lists of lists -/

section Placed

variable {α κ γ : Type}

/-- What the elements of a list hold, each thing at the place of its element and its place there. -/
def placed (held : α → List (κ × γ)) (l : List α) : List ((ℕ ×ₗ κ) × γ) :=
  l.zipIdx.flatMap fun (a, i) => (held a).map fun (k, c) => (toLex (i, k), c)

/-- Without their places the things are what the elements hold. -/
theorem map_snd_placed (held : α → List (κ × γ)) (l : List α) :
    (placed held l).map Prod.snd = l.flatMap fun a => (held a).map Prod.snd := by
  calc (placed held l).map Prod.snd
      = l.zipIdx.flatMap fun e => (held e.1).map Prod.snd := by
        rw [placed, List.map_flatMap]
        exact List.flatMap_congr fun e _ => List.map_map
    _ = (l.zipIdx.map Prod.fst).flatMap fun a => (held a).map Prod.snd := by rw [List.flatMap_map]
    _ = l.flatMap fun a => (held a).map Prod.snd := by rw [List.zipIdx_map_fst]

/-- A thing has a place exactly when the element there holds it there. -/
theorem mem_placed {held : α → List (κ × γ)} {l : List α} {i : ℕ} {k : κ} {c : γ} :
    (toLex (i, k), c) ∈ placed held l ↔ ∃ a, l[i]? = some a ∧ (k, c) ∈ held a := by
  rw [placed, List.mem_flatMap]
  constructor
  · rintro ⟨⟨a, j⟩, ha, hmem⟩
    obtain ⟨⟨k', c'⟩, hheld, heq⟩ := List.mem_map.mp hmem
    cases heq
    exact ⟨a, List.mk_mem_zipIdx_iff_getElem?.mp ha, hheld⟩
  · rintro ⟨a, ha, hheld⟩
    exact ⟨(a, i), List.mk_mem_zipIdx_iff_getElem?.mpr ha, List.mem_map.mpr ⟨(k, c), hheld, rfl⟩⟩

/-- The places of a list increase. -/
theorem pairwise_zipIdx (l : List α) : l.zipIdx.Pairwise fun e e' => e.2 < e'.2 := by
  refine List.pairwise_map.mp ?_
  rw [List.zipIdx_map_snd]
  exact List.pairwise_lt_range'

/-- Places increase when they do so inside each element. -/
theorem pairwise_placed [Preorder κ] {held : α → List (κ × γ)} {l : List α}
    (h : ∀ a ∈ l, (held a).Pairwise fun x y => x.1 < y.1) :
    (placed held l).Pairwise fun x y => x.1 < y.1 := by
  refine List.pairwise_flatMap.mpr ⟨fun e he => ?_, ?_⟩
  · refine List.pairwise_map.mpr ((h e.1 (List.fst_mem_of_mem_zipIdx he)).imp fun hlt => ?_)
    exact Prod.Lex.toLex_lt_toLex.mpr (.inr ⟨rfl, hlt⟩)
  · refine (pairwise_zipIdx l).imp fun hlt x hx y hy => ?_
    obtain ⟨x, -, rfl⟩ := List.mem_map.mp hx
    obtain ⟨y, -, rfl⟩ := List.mem_map.mp hy
    exact Prod.Lex.toLex_lt_toLex.mpr (.inl hlt)

/-- What stands at the places of a list that are not left empty. -/
def standing (l : List (Option γ)) : List (ℕ × γ) :=
  l.zipIdx.filterMap fun (c?, k) => c?.map (k, ·)

/-- Without their places the things are those that are not missing. -/
theorem map_snd_standing (l : List (Option γ)) : (standing l).map Prod.snd = l.reduceOption := by
  calc (standing l).map Prod.snd
      = l.zipIdx.filterMap Prod.fst := by
        rw [standing, List.map_filterMap]
        refine List.filterMap_congr fun e _ => ?_
        rw [Option.map_map]
        exact Option.map_id'
    _ = (l.zipIdx.map Prod.fst).reduceOption := by rw [List.reduceOption, List.filterMap_map]; rfl
    _ = l.reduceOption := by rw [List.zipIdx_map_fst]

/-- A thing stands at a place exactly when it is there in the list. -/
theorem mem_standing {l : List (Option γ)} {k : ℕ} {c : γ} :
    (k, c) ∈ standing l ↔ l[k]? = some (some c) := by
  rw [standing, List.mem_filterMap]
  constructor
  · rintro ⟨⟨c?, j⟩, hc, heq⟩
    obtain ⟨c', rfl, hpair⟩ := Option.map_eq_some_iff.mp heq
    cases hpair
    exact List.mk_mem_zipIdx_iff_getElem?.mp hc
  · exact fun h => ⟨(some c, k), List.mk_mem_zipIdx_iff_getElem?.mpr h, rfl⟩

/-- The places of what stands in a list increase. -/
theorem pairwise_standing (l : List (Option γ)) :
    (standing l).Pairwise fun x y => x.1 < y.1 := by
  refine List.pairwise_filterMap.mpr ((pairwise_zipIdx l).imp fun hlt x hx y hy => ?_)
  obtain ⟨c, -, rfl⟩ := Option.map_eq_some_iff.mp hx
  obtain ⟨d, -, rfl⟩ := Option.map_eq_some_iff.mp hy
  exact hlt

end Placed

/-! ## Sites -/

/-- Where a class stands: the element of the class path, the file of the element, and the entry of
the file. A class file has one entry. -/
abbrev Site := ℕ ×ₗ ℕ ×ₗ ℕ

/-- The classes that can be read from a class path, and where they stand. -/
inductive Occurs (archives : Archive.Reader) (w : Workspace) (paths : List Bytes) :
    Site → ClassFile.Class → Prop
  /-- A class stands in a class file. -/
  | classFile (i j : ℕ) {path location content : Bytes} {files : List (Bytes × Bytes)}
      {c : ClassFile.Class} (path_at : paths[i]? = some path)
      (files_of : filesOf w path = .ok files) (file_at : files[j]? = some (location, content))
      (notArchive : isArchiveName location = false) (parsed : ClassFile.parse content = .ok c) :
      Occurs archives w paths (toLex (i, toLex (j, 0))) c
  /-- A class stands in an archive. -/
  | entry (i j k : ℕ) {path location content text : Bytes} {files : List (Bytes × Bytes)}
      {ms : List Member} {m : Member} {c : ClassFile.Class} (path_at : paths[i]? = some path)
      (files_of : filesOf w path = .ok files) (file_at : files[j]? = some (location, content))
      (isArchive : isArchiveName location = true) (members_of : members archives content = .ok ms)
      (member_at : ms[k]? = some m) (wanted : m.isWanted = true) (text_of : m.text = .ok text)
      (parsed : ClassFile.parse text = .ok c) : Occurs archives w paths (toLex (i, toLex (j, k))) c

/-- The class of a member. -/
theorem Member.read?_eq_some_iff {m : Member} {c : ClassFile.Class} :
    m.read? = some c ↔
      m.isWanted = true ∧ ∃ text, m.text = .ok text ∧ ClassFile.parse text = .ok c := by
  simp only [read?, Option.ite_none_right_eq_some, Option.bind_eq_some_iff, toOption_eq_some_iff]

/-- A class stands at a place of a file exactly when it is read from there. -/
theorem occurs_iff {w : Workspace} {paths : List Bytes} {i j k : ℕ} {c : ClassFile.Class} :
    Occurs archives w paths (toLex (i, toLex (j, k))) c ↔
      ∃ path files file, paths[i]? = some path ∧ filesOf w path = .ok files ∧
        files[j]? = some file ∧ (classesIn archives file)[k]? = some (some c) := by
  constructor
  · intro h
    cases h with
    | classFile _ _ path_at files_of file_at notArchive parsed =>
      refine ⟨_, _, _, path_at, files_of, file_at, ?_⟩
      simp [classesIn, notArchive, toOption_eq_some_iff.mpr parsed]
    | entry _ _ _ path_at files_of file_at isArchive members_of member_at wanted text_of parsed =>
      refine ⟨_, _, _, path_at, files_of, file_at, ?_⟩
      have hread := Member.read?_eq_some_iff.mpr ⟨wanted, _, text_of, parsed⟩
      simp [classesIn, isArchive, toOption_eq_some_iff.mpr members_of, member_at, hread]
  · rintro ⟨path, files, ⟨location, content⟩, hpath, hfiles, hfile, hclass⟩
    rw [classesIn] at hclass
    by_cases harchive : isArchiveName location = true
    · rw [if_pos harchive, List.getElem?_map] at hclass
      obtain ⟨m, hm, hread⟩ := Option.map_eq_some_iff.mp hclass
      obtain ⟨hwanted, text, htext, hparse⟩ := Member.read?_eq_some_iff.mp hread
      cases hmembers : members archives content with
      | error fault =>
        rw [hmembers] at hm
        cases hm
      | ok ms =>
        rw [hmembers] at hm
        exact .entry i j k hpath hfiles hfile harchive hmembers hm hwanted htext hparse
    · rw [if_neg harchive] at hclass
      obtain ⟨hk, hparse⟩ := List.getElem?_eq_some_iff.mp hclass
      obtain rfl : k = 0 := Nat.lt_one_iff.mp hk
      exact .classFile i j hpath hfiles hfile (Bool.eq_false_iff.mpr harchive)
        (toOption_eq_some_iff.mp hparse)

/-- All classes of a class path with their sites, in order. -/
def occurrences (archives : Archive.Reader) (w : Workspace) (paths : List Bytes) :
    List (Site × ClassFile.Class) :=
  placed (fun path => placed (fun file => standing (classesIn archives file))
    ((filesOf w path).toOption.getD [])) paths

/-- Without their sites the occurrences are the classes of all elements in order. -/
theorem map_snd_occurrences (archives : Archive.Reader) (w : Workspace) (paths : List Bytes) :
    (occurrences archives w paths).map Prod.snd = paths.flatMap (classesAt archives w) := by
  unfold occurrences classesAt
  simp only [map_snd_placed, map_snd_standing]

/-- A class is listed with a site exactly when it stands there. -/
theorem mem_occurrences {w : Workspace} {paths : List Bytes} {site : Site} {c : ClassFile.Class} :
    (site, c) ∈ occurrences archives w paths ↔ Occurs archives w paths site c := by
  obtain ⟨i, j, k⟩ := site
  unfold occurrences
  refine mem_placed.trans (Iff.trans ?_ occurs_iff.symm)
  constructor
  · rintro ⟨path, hpath, hmem⟩
    obtain ⟨file, hfile, hmem⟩ := mem_placed.mp hmem
    cases hfiles : filesOf w path with
    | error fault =>
      rw [hfiles] at hfile
      cases hfile
    | ok files =>
      rw [hfiles] at hfile
      exact ⟨path, files, file, hpath, hfiles, hfile, mem_standing.mp hmem⟩
  · rintro ⟨path, files, file, hpath, hfiles, hfile, hclass⟩
    refine ⟨path, hpath, mem_placed.mpr ⟨file, ?_, mem_standing.mpr hclass⟩⟩
    rw [hfiles]
    exact hfile

/-- The sites of what is listed increase. -/
theorem pairwise_occurrences (archives : Archive.Reader) (w : Workspace) (paths : List Bytes) :
    (occurrences archives w paths).Pairwise fun x y => x.1 < y.1 :=
  pairwise_placed fun _ _ => pairwise_placed fun _ _ => pairwise_standing _

end ReturnAudit.ClassPath
