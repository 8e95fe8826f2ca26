import ReturnAudit.Proofs.ClassPath.Additions
import ReturnAudit.Proofs.ClassPath.Sites

/-!
# Shadowing

Of several classes with one name on a class path, the one at the first site stands. So what is put
behind a class path adds the classes with new names and changes nothing else.
-/

namespace ReturnAudit.ClassPath

variable {archives : Archive.Reader}

/-- The files of an element of a class path follow one another by their locations. -/
theorem pairwise_filesOf {w : Workspace} {path : Bytes} {files : List (Bytes × Bytes)}
    (h : filesOf w path = .ok files) : files.Pairwise fun a b => Bytes.le a.1 b.1 = true := by
  rcases filesOf_eq_ok_iff.mp h with ⟨-, content, -, -, rfl⟩ | ⟨directory, -, rfl⟩
  · exact List.pairwise_singleton _ _
  · exact List.pairwise_mergeSort (fun a b c => Bytes.le_trans a.1 b.1 c.1)
      (fun a b => Bytes.le_total a.1 b.1) _

/-- What follows a class path adds the classes with new names. -/
theorem loadClasses_append {w : Workspace} {paths more : List Bytes} {cs ds : List ClassFile.Class}
    (h : loadClasses archives w paths = .ok cs) (hmore : loadClasses archives w more = .ok ds) :
    loadClasses archives w (paths ++ more) =
      .ok (cs ++ ds.filter fun d => d.name ∉ cs.map (·.name)) := by
  rw [loadClasses_eq_ok_iff] at h hmore ⊢
  obtain ⟨hloads, rfl⟩ := h
  obtain ⟨hmoreLoads, rfl⟩ := hmore
  refine ⟨List.forall_mem_append.mpr ⟨hloads, hmoreLoads⟩, ?_⟩
  rw [List.flatMap_append, firstOfEachName_append]

/-- Whether a class stands at the first of all sites of classes with its name. -/
def IsFirst (archives : Archive.Reader) (w : Workspace) (paths : List Bytes) (site : Site)
    (c : ClassFile.Class) : Prop :=
  Occurs archives w paths site c ∧
    ∀ site' c', Occurs archives w paths site' c' → c'.name = c.name → site ≤ site'

/-- Loading gives the classes that are first, in the order of their sites. -/
theorem exists_sites {w : Workspace} {paths : List Bytes} {cs : List ClassFile.Class}
    (h : loadClasses archives w paths = .ok cs) :
    ∃ sites : List Site, sites.Pairwise (· < ·) ∧
      List.Forall₂ (IsFirst archives w paths) sites cs := by
  obtain ⟨-, rfl⟩ := loadClasses_eq_ok_iff.mp h
  have hsorted := pairwise_occurrences archives w paths
  obtain ⟨kept, hsub, hkept, hfirst⟩ := exists_first_places hsorted []
  refine ⟨kept.map Prod.fst, List.pairwise_map.mpr (hsorted.sublist hsub), ?_⟩
  rw [← map_snd_occurrences, ← hkept, List.forall₂_map_left_iff, List.forall₂_map_right_iff,
    List.forall₂_same]
  rintro ⟨site, c⟩ hmem
  refine ⟨mem_occurrences.mp (hsub.subset hmem), fun site' c' hoccurs hname => ?_⟩
  exact (hfirst _ hmem).2 _ (mem_occurrences.mpr hoccurs) hname

/-- Loading gives a class of each name that occurs, and of no other. -/
theorem mem_names_loadClasses {w : Workspace} {paths : List Bytes} {cs : List ClassFile.Class}
    (h : loadClasses archives w paths = .ok cs) {name : Bytes} :
    name ∈ cs.map (·.name) ↔ ∃ site c, Occurs archives w paths site c ∧ c.name = name := by
  obtain ⟨-, rfl⟩ := loadClasses_eq_ok_iff.mp h
  rw [mem_names_firstOfEachName, ← map_snd_occurrences, List.map_map]
  simp only [List.mem_map, List.not_mem_nil, not_false_eq_true, and_true, Prod.exists,
    mem_occurrences, Function.comp_apply]

/-- A class path that is put behind another one adds its classes with new names, in order. The names
of loaded classes are distinct, each class stands at the first site of its name, each name that
occurs is loaded, and the classes come in the order of their sites: by element of the class path, by
location of the file, and by entry. Whatever is added to the tree that holds no class changes
nothing of this. Archives may be read by any reader. -/
theorem loadClasses_shadows {archives : Archive.Reader} {w : Workspace} {paths more : List Bytes}
    {cs ds : List ClassFile.Class}
    (h : loadClasses archives w paths = .ok cs) (hmore : loadClasses archives w more = .ok ds) :
    loadClasses archives w (paths ++ more) =
      .ok (cs ++ ds.filter fun d => d.name ∉ cs.map (·.name)) ∧
    (cs.map (·.name)).Nodup ∧
    (∃ sites : List Site, sites.Pairwise (· < ·) ∧
      List.Forall₂ (IsFirst archives w paths) sites cs) ∧
    (∀ name, name ∈ cs.map (·.name) ↔ ∃ site c, Occurs archives w paths site c ∧ c.name = name) ∧
    (∀ path files, filesOf w path = .ok files →
      files.Pairwise fun a b => Bytes.le a.1 b.1 = true) ∧
    ∀ tree, Relation.ReflTransGen (Adds archives) w.tree tree →
      loadClasses archives { w with tree := tree } paths = .ok cs := by
  refine ⟨loadClasses_append h hmore, ?_, exists_sites h, fun _ => mem_names_loadClasses h,
    fun _ _ => pairwise_filesOf, fun _ => loadClasses_of_additions h⟩
  rw [(loadClasses_eq_ok_iff.mp h).2]
  exact nodup_names_firstOfEachName _ _

/-! ## A shelf -/

/-- A class file that holds a name and the version of the format. -/
def bareClass (major : UInt8) (name : Bytes) : Bytes :=
  [0xca, 0xfe, 0xba, 0xbe, 0, 0, 0, major, 0, 3, 1, 0, UInt8.ofNat name.length] ++ name ++
    [7, 0, 1, 0, 33, 0, 2, 0, 0, 0, 0, 0, 0, 0, 0, 0, 0]

/-- Two class files, and a third one for a later version of the platform. -/
def libraryFiles : List (Bytes × Bytes) :=
  [("S.class", bareClass 61 "S"), ("T.class", bareClass 52 "T"),
    ("META-INF/versions/21/S.class", bareClass 65 "S")]

/-- The archive of the first of these files. -/
def library (n : ℕ) : Bytes :=
  Archive.Zip.write (libraryFiles.take n)

/-- The members of this archive. -/
def libraryMembers (n : ℕ) : List Member :=
  (libraryFiles.take n).map fun (name, text) => ⟨name, false, .ok text⟩

/-- A directory with a class file and the archive, another archive beside it, and what was added. -/
def shelf (n : ℕ) (added : List (Path × Option Bytes)) : Workspace where
  root := []
  directory := []
  tree := ⟨(["a"], none) :: (["a", "S.class"], some (bareClass 52 "S")) ::
    (["a", "lib.jar"], some (library n)) ::
    (["more.jar"], some (Archive.Zip.write [("T.class", bareClass 61 "T"),
      ("U.class", bareClass 52 "U")])) :: added⟩

/-- The names of classes and the versions of their formats. -/
def tags (cs : List ClassFile.Class) : List (Bytes × ℕ) :=
  cs.map fun c => (c.name, c.major)

/-- The archive is read alike under all rules. -/
theorem members_library (rules : Archive.WideRules) :
    members (Archive.Zip.reader rules) (library 2) = .ok (libraryMembers 2) ∧
      members (Archive.Zip.reader rules) (library 3) = .ok (libraryMembers 3) := by
  cases rules <;> decide +kernel

/-- The directory of the shelf stands for its class file and its archive. -/
theorem filesOf_shelf : filesOf (shelf 2 []) "/a" = .ok
    [("file://localhost/a/S.class", bareClass 52 "S"),
      ("file://localhost/a/lib.jar", library 2)] := by
  refine filesOf_eq_ok_iff.mpr (.inr ⟨["a"], by decide +kernel, ?_⟩)
  rw [filesBelow_eq, List.mergeSort_of_pairwise (by decide +kernel)]
  decide +kernel

/-- The archive gets its third member, and the directory a file that is no class. -/
theorem shelf_additions (rules : Archive.WideRules) :
    Relation.ReflTransGen (Adds (Archive.Zip.reader rules)) (shelf 2 []).tree
      (shelf 3 [(["a", "V.class"], some [0xca, 0xfe])]).tree := by
  have hmember : AddsMember (Archive.Zip.reader rules) (library 2) (library 3) :=
    ⟨libraryMembers 2, ⟨"META-INF/versions/21/S.class", false, .ok _⟩, [], .inl rfl,
      (members_library rules).1, (members_library rules).2⟩
  have harchive : Adds (Archive.Zip.reader rules) (shelf 2 []).tree (shelf 3 []).tree :=
    .archiveMember ((shelf 2 []).tree.nodes.take 2) ((shelf 2 []).tree.nodes.drop 3)
      ["a", "lib.jar"] "lib.jar" (library 2) (library 3) (by decide +kernel) rfl
      (by decide +kernel) hmember
  have hfile : Adds (Archive.Zip.reader rules) (shelf 3 []).tree
      (shelf 3 [(["a", "V.class"], some [0xca, 0xfe])]).tree :=
    .classFile (shelf 3 []).tree.nodes [] ["a", "V.class"] "V.class" [0xca, 0xfe]
      (by decide +kernel) rfl (by decide +kernel) ⟨_, rfl⟩
  exact .tail (.single harchive) hfile

/-- The directory stands for a class file and an archive. The class file hides a class of the
archive, and both hide a class of the archive behind them. A member for a later version and a file
that is no class change nothing. All this is so under all rules for reading archives. -/
theorem loadClasses_shadows_shelf :
    (filesOf (shelf 2 []) "/a").map (List.map Prod.fst) =
      .ok ["file://localhost/a/S.class", "file://localhost/a/lib.jar"] ∧
    ∀ rules, ∃ cs ds,
      loadClasses (Archive.Zip.reader rules) (shelf 2 []) ["/a"] = .ok cs ∧
      loadClasses (Archive.Zip.reader rules) (shelf 2 []) ["/more.jar"] = .ok ds ∧
      tags cs = [(Bytes.ofString "S", 52), (Bytes.ofString "T", 52)] ∧
      tags ds = [(Bytes.ofString "T", 61), (Bytes.ofString "U", 52)] ∧
      loadClasses (Archive.Zip.reader rules) (shelf 2 []) ["/a", "/more.jar"] =
        .ok (cs ++ ds.filter fun d => d.name ∉ cs.map (·.name)) ∧
      loadClasses (Archive.Zip.reader rules)
        (shelf 3 [(["a", "V.class"], some [0xca, 0xfe])]) ["/a"] = .ok cs := by
  refine ⟨by rw [filesOf_shelf]; rfl, fun rules => ?_⟩
  have hloads : Loads (Archive.Zip.reader rules) (shelf 2 []) "/a" := by
    refine ⟨_, filesOf_shelf, ?_⟩
    rw [List.forall_mem_cons, List.forall_mem_singleton]
    refine ⟨fun harchive => absurd harchive (by decide +kernel), fun _ => ?_⟩
    exact ⟨_, (members_library rules).1, List.forall_mem_map.mpr fun f _ _ => ⟨f.2, rfl⟩⟩
  have hcs := loadClasses_eq_ok_iff.mpr ⟨List.forall_mem_singleton.mpr hloads, rfl⟩
  have hmore : (loadClasses (Archive.Zip.reader rules) (shelf 2 []) ["/more.jar"]).map tags =
      .ok [(Bytes.ofString "T", 61), (Bytes.ofString "U", 52)] := by
    cases rules <;> decide +kernel
  obtain ⟨ds, hds, htags⟩ := of_map hmore
  have h := loadClasses_shadows hcs hds
  refine ⟨_, ds, hcs, hds, ?_, htags, h.1, h.2.2.2.2.2 _ (shelf_additions rules)⟩
  rw [List.flatMap_singleton, classesAt_eq filesOf_shelf]
  cases rules <;> decide +kernel

end ReturnAudit.ClassPath
