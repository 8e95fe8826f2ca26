import Mathlib.Logic.Relation
import ReturnAudit.Proofs.ClassPath.FileNames
import ReturnAudit.Proofs.ClassPath.Loading
import ReturnAudit.Proofs.Keyed
import ReturnAudit.Proofs.StableSort
import ReturnAudit.Proofs.Text.ByteOrder

/-!
# Additions without classes

A file tree can grow by directories, by class files that cannot be read as classes, and by members
of archives that are not wanted or cannot be read as classes. One such step changes neither where
the elements of a class path lead nor which classes stand there, so loading a class path that could
be loaded gives the same classes after any number of steps.
-/

namespace ReturnAudit

/-- Whether a text cannot be read as a class. -/
def ClassFile.Rejected (text : Bytes) : Prop :=
  ∃ fault, ClassFile.parse text = .error fault

namespace ClassPath

open ClassFile (Rejected)

variable {archives : Archive.Reader}

/-- A rejected text gives no class. -/
theorem toOption_parse_of_rejected {text : Bytes} (h : Rejected text) :
    (ClassFile.parse text).toOption = none := by
  obtain ⟨fault, h⟩ := h
  rw [h]
  rfl

/-- Whether a member adds no class: it is not wanted, or its text cannot be read as a class. -/
def Member.Ignored (m : Member) : Prop :=
  m.isWanted = false ∨ ∃ text, m.text = .ok text ∧ Rejected text

/-- A member that adds no class is read as none. -/
theorem Member.Ignored.read?_eq {m : Member} (h : m.Ignored) : m.read? = none := by
  by_cases hwanted : m.isWanted = true
  · rcases h with hnot | ⟨text, htext, hrejected⟩
    · rw [hnot] at hwanted
      cases hwanted
    · rw [Member.read?_of_text hwanted htext, toOption_parse_of_rejected hrejected]
  · exact Member.read?_of_not_wanted (Bool.eq_false_iff.mpr hwanted)

/-- Whether the second archive has one more member than the first, one that adds no class. -/
def AddsMember (archives : Archive.Reader) (old new : Bytes) : Prop :=
  ∃ (before : List Member) (m : Member) (after : List Member), m.Ignored ∧
    members archives old = .ok (before ++ after) ∧ members archives new = .ok (before ++ m :: after)

/-- One step in which a file tree grows by something that holds no class. -/
inductive Adds (archives : Archive.Reader) : FileTree → FileTree → Prop
  /-- A directory at a path where nothing stood. -/
  | directory (before after : List (Path × Option Bytes)) (path : Path)
      (fresh : path ∉ (before ++ after).map Prod.fst) :
      Adds archives ⟨before ++ after⟩ ⟨before ++ (path, none) :: after⟩
  /-- A class file at a path where nothing stood, which cannot be read as a class. -/
  | classFile (before after : List (Path × Option Bytes)) (path : Path) (name content : Bytes)
      (fresh : path ∉ (before ++ after).map Prod.fst) (named : path.getLast? = some name)
      (isClass : isClassName name = true) (rejected : Rejected content) :
      Adds archives ⟨before ++ after⟩ ⟨before ++ (path, some content) :: after⟩
  /-- A member of the archive that stands at a path. -/
  | archiveMember (before after : List (Path × Option Bytes)) (path : Path) (name old new : Bytes)
      (first : path ∉ before.map Prod.fst) (named : path.getLast? = some name)
      (isArchive : isArchiveName name = true) (adds : AddsMember archives old new) :
      Adds archives ⟨before ++ (path, some old) :: after⟩ ⟨before ++ (path, some new) :: after⟩

/-! ## Files -/

/-- The locations at which files hold classes, with these classes. -/
def holdings (archives : Archive.Reader) (files : List (Bytes × Bytes)) :
    List (Bytes × List ClassFile.Class) :=
  (files.map fun file => (file.1, (classesIn archives file).reduceOption)).filter
    fun held => !held.2.isEmpty

/-- The holdings of two lists of files follow one another. -/
theorem holdings_append (files files' : List (Bytes × Bytes)) :
    holdings archives (files ++ files') = holdings archives files ++ holdings archives files' := by
  rw [holdings, List.map_append, List.filter_append]
  rfl

/-- Files without classes hold nothing. -/
theorem holdings_eq_nil {files : List (Bytes × Bytes)}
    (h : ∀ file ∈ files, (classesIn archives file).reduceOption = []) :
    holdings archives files = [] := by
  refine List.filter_eq_nil_iff.mpr fun held hheld => ?_
  obtain ⟨file, hfile, rfl⟩ := List.mem_map.mp hheld
  simp [h file hfile]

/-- The classes that are held are the classes in the files. -/
theorem flatMap_holdings (files : List (Bytes × Bytes)) :
    (holdings archives files).flatMap Prod.snd =
      files.flatMap fun file => (classesIn archives file).reduceOption := by
  induction files with
  | nil => rfl
  | cons file files ih =>
    rw [List.flatMap_cons, ← ih, holdings, List.map_cons, List.filter_cons]
    cases hclasses : (classesIn archives file).reduceOption with
    | nil => simp [holdings]
    | cons c cs => simp [holdings]

/-- The order of files by their locations. -/
def locationLe (a b : Bytes × Bytes) : Bool :=
  Bytes.le a.1 b.1

/-- Sorting files by their locations sorts what they hold. -/
theorem holdings_mergeSort (files : List (Bytes × Bytes)) :
    holdings archives (files.mergeSort locationLe) =
      (holdings archives files).mergeSort fun a b => Bytes.le a.1 b.1 := by
  let held (file : Bytes × Bytes) := (file.1, (classesIn archives file).reduceOption)
  have hmap : (files.mergeSort locationLe).map held =
      (files.map held).mergeSort fun a b => Bytes.le a.1 b.1 :=
    List.map_mergeSort fun _ _ _ _ => rfl
  change ((files.mergeSort locationLe).map held).filter _ = ((files.map held).filter _).mergeSort _
  rw [hmap]
  exact (mergeSort_filter (fun a b c => Bytes.le_trans a.1 b.1 c.1)
    (fun a b => Bytes.le_total a.1 b.1) _ _).symm

/-- Whether second files hold the same classes at the same locations as first ones, and can be read
if these can. -/
structure HoldSame (archives : Archive.Reader) (files files' : List (Bytes × Bytes)) : Prop where
  /-- The second files can be read if the first ones can. -/
  readable : (∀ file ∈ files, Readable archives file) → ∀ file ∈ files', Readable archives file
  /-- The classes are the same. -/
  holdings : holdings archives files' = holdings archives files

namespace HoldSame

variable {files files' more more' : List (Bytes × Bytes)}

/-- Files hold what they hold. -/
theorem refl (files : List (Bytes × Bytes)) : HoldSame archives files files :=
  ⟨id, rfl⟩

/-- Files that hold the same do so when others that hold the same follow. -/
theorem append (h : HoldSame archives files files') (hmore : HoldSame archives more more') :
    HoldSame archives (files ++ more) (files' ++ more') := by
  refine ⟨fun hreadable => ?_, ?_⟩
  · rw [List.forall_mem_append] at hreadable ⊢
    exact hreadable.imp h.readable hmore.readable
  · rw [holdings_append, holdings_append, h.holdings, hmore.holdings]

/-- Files that hold the same do so when they are sorted. -/
theorem mergeSort (h : HoldSame archives files files') :
    HoldSame archives (files.mergeSort locationLe) (files'.mergeSort locationLe) := by
  refine ⟨fun hreadable file hfile => ?_, ?_⟩
  · refine h.readable (fun file hfile => hreadable file ?_) file (List.mem_mergeSort.mp hfile)
    exact List.mem_mergeSort.mpr hfile
  · rw [holdings_mergeSort, holdings_mergeSort, h.holdings]

/-- Files that hold the same hold the same classes in order. -/
theorem flatMap_classesIn (h : HoldSame archives files files') :
    files'.flatMap (fun file => (classesIn archives file).reduceOption) =
      files.flatMap fun file => (classesIn archives file).reduceOption := by
  rw [← flatMap_holdings, ← flatMap_holdings, h.holdings]

/-- Class files that are rejected can be read and hold no classes. -/
theorem of_rejected
    (h : ∀ file ∈ files, isClassName file.1 = true ∧ Rejected file.2) :
    HoldSame archives [] files := by
  refine ⟨fun _ file hfile harchive => ?_, holdings_eq_nil fun file hfile => ?_⟩
  · rw [isArchiveName_of_isClassName (h file hfile).1] at harchive
    cases harchive
  · rw [classesIn, isArchiveName_of_isClassName (h file hfile).1,
      toOption_parse_of_rejected (h file hfile).2]
    rfl

/-- An archive holds the same classes when it has one more member that adds none. -/
theorem of_addsMember {location old new : Bytes} (harchive : isArchiveName location = true)
    (h : AddsMember archives old new) : HoldSame archives [(location, old)] [(location, new)] := by
  obtain ⟨before, m, after, hm, hold, hnew⟩ := h
  refine ⟨fun hreadable => ?_, ?_⟩
  · rw [List.forall_mem_singleton] at hreadable ⊢
    obtain ⟨ms, hms, htexts⟩ := hreadable harchive
    obtain rfl := Except.ok.inj (hold.symm.trans hms)
    refine fun _ => ⟨_, hnew, fun m' hm' hwanted => ?_⟩
    rw [List.mem_append, List.mem_cons] at hm'
    rcases hm' with hm' | rfl | hm'
    · exact htexts m' (List.mem_append_left _ hm') hwanted
    · rcases hm with hnot | ⟨text, htext, -⟩
      · rw [hnot] at hwanted
        cases hwanted
      · exact ⟨text, htext⟩
    · exact htexts m' (List.mem_append_right _ hm') hwanted
  · have hclasses : (classesIn archives (location, new)).reduceOption =
        (classesIn archives (location, old)).reduceOption := by
      rw [classesIn, classesIn, if_pos harchive, if_pos harchive, hold, hnew]
      simp only [Except.toOption, Option.getD_some, List.map_append, List.map_cons, hm.read?_eq,
        List.reduceOption_append, List.reduceOption_cons_of_none]
    rw [ClassPath.holdings, ClassPath.holdings, List.map_singleton, List.map_singleton, hclasses]

end HoldSame

/-! ## Directories -/

/-- The file that a node of a tree is known as below a directory, if it can hold classes. -/
def located (root : Path) (l : Location) (directory : Path) (node : Path × Option Bytes) :
    List (Bytes × Bytes) :=
  let text := Path.below l.text ((root ++ node.1).drop directory.length)
  match node.2 with
  | some content =>
    if directory.isPrefixOf (root ++ node.1) && isLoadableName text then [(text, content)] else []
  | none => []

/-- The files below a directory are found node by node, and then sorted. -/
theorem filesBelow_eq (w : Workspace) (l : Location) (directory : Path) :
    filesBelow w l directory =
      (w.tree.nodes.flatMap (located w.root l directory)).mergeSort locationLe := by
  have hfiles : (((w.filesBelow directory).map fun file =>
      (Path.below l.text file.1, file.2)).filter fun file => isLoadableName file.1) =
        w.tree.nodes.flatMap (located w.root l directory) := by
    unfold Workspace.filesBelow FileTree.files
    induction w.tree.nodes with
    | nil => rfl
    | cons node nodes ih =>
      obtain ⟨path, content⟩ := node
      rw [List.flatMap_cons, ← ih, located]
      cases content with
      | none => rfl
      | some content =>
        by_cases hbelow : directory <+: w.root ++ path
        · by_cases hname : isLoadableName
              (Path.below l.text ((w.root ++ path).drop directory.length)) = true <;>
            simp [hbelow, hname]
        · simp [hbelow]
  exact congrArg (fun files => files.mergeSort locationLe) hfiles

/-- A file below a directory is known by a text that ends with its name. -/
theorem endsIn_of_mem_located {root directory path : Path} {l : Location} {name content : Bytes}
    {file : Bytes × Bytes} (hne : directory ≠ root ++ path) (hname : path.getLast? = some name)
    (h : file ∈ located root l directory (path, some content)) :
    file.2 = content ∧ EndsIn file.1 name := by
  rw [located] at h
  dsimp only at h
  split at h
  · rename_i hlocated
    obtain ⟨hbelow, -⟩ := Bool.and_eq_true_iff.mp hlocated
    obtain ⟨rel, hrel⟩ := List.isPrefixOf_iff_prefix.mp hbelow
    rw [← hrel, List.drop_left] at h
    obtain rfl := List.mem_singleton.mp h
    have hpath : path ≠ [] := by
      rintro rfl
      cases hname
    have hrelne : rel ≠ [] := by
      rintro rfl
      exact hne (by rw [← hrel, List.append_nil])
    refine ⟨rfl, Path.endsIn_below l.text ?_⟩
    rw [← getLast?_of_suffix (List.suffix_append directory rel) hrelne, hrel,
      getLast?_of_suffix (List.suffix_append root path) hpath, hname]
  · cases h

/-- Whether a node is known below a directory does not depend on what it holds. -/
theorem located_eq (root : Path) (l : Location) (directory path : Path) :
    (∀ content, located root l directory (path, some content) = []) ∨
      ∃ text, ∀ content, located root l directory (path, some content) = [(text, content)] := by
  by_cases hlocated : (directory.isPrefixOf (root ++ path) &&
      isLoadableName (Path.below l.text ((root ++ path).drop directory.length))) = true
  · refine .inr ⟨Path.below l.text ((root ++ path).drop directory.length), fun content => ?_⟩
    unfold located
    exact if_pos hlocated
  · refine .inl fun content => ?_
    unfold located
    exact if_neg hlocated

/-! ## What stands at a path -/

/-- A directory stands at the root, and where the tree has one. -/
theorem lookup_eq_directory_iff {tree : FileTree} {path : Path} :
    tree.lookup path = .directory ↔ path = [] ∨ tree.nodes.lookup path = some none := by
  cases path with
  | nil => exact iff_of_true rfl (.inl rfl)
  | cons name path =>
    simp only [FileTree.lookup, reduceCtorEq, false_or]
    cases tree.nodes.lookup (name :: path) with
    | none => dsimp only; split <;> simp
    | some found => cases found <;> simp

/-- A file stands where the tree has one. -/
theorem lookup_eq_file_iff {tree : FileTree} {path : Path} {content : Bytes} :
    tree.lookup path = .file content ↔
      path ≠ [] ∧ tree.nodes.lookup path = some (some content) := by
  cases path with
  | nil => exact iff_of_false (fun h => by cases h) fun h => h.1 rfl
  | cons name path =>
    simp only [FileTree.lookup, ne_eq, reduceCtorEq, not_false_eq_true, true_and]
    cases tree.nodes.lookup (name :: path) with
    | none => dsimp only; split <;> simp
    | some found => cases found <;> simp

/-- What is found at a path is found there when a node at a new path is added. -/
theorem lookup_insert {before after : List (Path × Option Bytes)} {path p : Path}
    {content found : Option Bytes} (fresh : path ∉ (before ++ after).map Prod.fst)
    (h : (before ++ after).lookup p = some found) :
    (before ++ (path, content) :: after).lookup p = some found := by
  have hne : path ≠ p := by
    rintro rfl
    exact fresh (List.mem_map_of_mem (mem_of_lookup h))
  rw [List.lookup_append] at h ⊢
  rwa [lookup_cons_key, if_neg hne]

/-- What is found at a path is the first node there. -/
theorem lookup_first {before after : List (Path × Option Bytes)} {path : Path}
    {content : Option Bytes} (first : path ∉ before.map Prod.fst) :
    (before ++ (path, content) :: after).lookup path = some content := by
  have hbefore : before.lookup path = none := by
    cases hlookup : before.lookup path with
    | none => rfl
    | some c => exact absurd (List.mem_map_of_mem (mem_of_lookup hlookup)) first
  rw [List.lookup_append, hbefore, lookup_cons_key, if_pos rfl]
  rfl

/-- What is found at a path when the node at another path has a new content. -/
theorem lookup_replace {before after : List (Path × Option Bytes)} {path p : Path}
    {old new : Bytes} {found : Option Bytes} (first : path ∉ before.map Prod.fst)
    (h : (before ++ (path, some old) :: after).lookup p = some found) :
    (p ≠ path ∧ (before ++ (path, some new) :: after).lookup p = some found) ∨
      (p = path ∧ found = some old ∧
        (before ++ (path, some new) :: after).lookup p = some (some new)) := by
  by_cases hp : p = path
  · subst hp
    rw [lookup_first first] at h
    exact .inr ⟨rfl, (Option.some.inj h).symm, lookup_first first⟩
  · rw [List.lookup_append, lookup_cons_key, if_neg (Ne.symm hp)] at h ⊢
    exact .inl ⟨hp, h⟩

/-- Whether what a file holds is read as before, because it is the same or the file is an archive
with one more member that adds no class. -/
def Grows (archives : Archive.Reader) (path : Path) (content content' : Bytes) : Prop :=
  content' = content ∨ ∃ name, path.getLast? = some name ∧ isArchiveName name = true ∧
    AddsMember archives content content'

/-- A directory stays one after an addition. -/
theorem Adds.lookup_directory {tree tree' : FileTree} (h : Adds archives tree tree') {p : Path}
    (hp : tree.lookup p = .directory) : tree'.lookup p = .directory := by
  rw [lookup_eq_directory_iff] at hp ⊢
  refine hp.imp_right fun hfound => ?_
  cases h with
  | directory before after path fresh => exact lookup_insert fresh hfound
  | classFile before after path name content fresh => exact lookup_insert fresh hfound
  | archiveMember before after path name old new first =>
    rcases lookup_replace first hfound with ⟨-, hsame⟩ | ⟨-, heq, -⟩
    · exact hsame
    · cases heq

/-- A file stays one after an addition, and is read as before. -/
theorem Adds.lookup_file {tree tree' : FileTree} (h : Adds archives tree tree') {p : Path}
    {content : Bytes} (hp : tree.lookup p = .file content) :
    ∃ content', tree'.lookup p = .file content' ∧ Grows archives p content content' := by
  rw [lookup_eq_file_iff] at hp
  simp only [lookup_eq_file_iff]
  cases h with
  | directory before after path fresh =>
    exact ⟨content, ⟨hp.1, lookup_insert fresh hp.2⟩, .inl rfl⟩
  | classFile before after path name added fresh =>
    exact ⟨content, ⟨hp.1, lookup_insert fresh hp.2⟩, .inl rfl⟩
  | archiveMember before after path name old new first named isArchive adds =>
    rcases lookup_replace first hp.2 with ⟨-, hsame⟩ | ⟨rfl, heq, hnew⟩
    · exact ⟨content, ⟨hp.1, hsame⟩, .inl rfl⟩
    · cases heq
      exact ⟨new, ⟨hp.1, hnew⟩, .inr ⟨name, named, isArchive, adds⟩⟩

/-- A path with a last name at which no directory is kept does not lead to one. -/
theorem lookup_ne_directory {tree : FileTree} {path : Path} {name : Bytes}
    (hname : path.getLast? = some name) (h : tree.nodes.lookup path ≠ some none) :
    tree.lookup path ≠ .directory := by
  rw [Ne, lookup_eq_directory_iff, not_or]
  refine ⟨?_, h⟩
  rintro rfl
  cases hname

namespace Adds

variable {w : Workspace} {tree : FileTree}

/-- A directory at a path of the machine stays one after an addition. -/
theorem workspace_directory (h : Adds archives w.tree tree) {p : Path}
    (hp : w.lookup p = .directory) : { w with tree := tree : Workspace }.lookup p = .directory := by
  unfold Workspace.lookup at hp ⊢
  split at hp
  · rename_i hroot
    rw [if_pos hroot]
    exact h.lookup_directory hp
  · rename_i hroot
    rw [if_neg hroot]
    exact hp

/-- A file at a path of the machine stays one after an addition, and is read as before. -/
theorem workspace_file (h : Adds archives w.tree tree) {p : Path} {content : Bytes}
    (hp : w.lookup p = .file content) :
    ∃ content', { w with tree := tree : Workspace }.lookup p = .file content' ∧
      Grows archives p content content' := by
  unfold Workspace.lookup at hp ⊢
  split at hp
  · rename_i hroot
    rw [if_pos hroot]
    obtain ⟨content', hlookup, hgrows⟩ := h.lookup_file hp
    refine ⟨content', hlookup, hgrows.imp_right ?_⟩
    rintro ⟨name, hname, hrest⟩
    have hne : p.drop w.root.length ≠ [] := by
      intro hnil
      rw [hnil] at hname
      cases hname
    exact ⟨name, (getLast?_of_suffix (List.drop_suffix _ p) hne).trans hname, hrest⟩
  · split at hp <;> cases hp

/-- A way to something leads there after an addition. -/
theorem follow_eq (h : Adds archives w.tree tree) {p q : Path} {names : List Bytes}
    {found : FileTree.Lookup} (hfollow : w.follow p names = (q, found))
    (habsent : found ≠ .absent) (hblocked : found ≠ .blocked) :
    w.lookup q = found ∧ { w with tree := tree : Workspace }.follow p names =
      (q, { w with tree := tree : Workspace }.lookup q) := by
  induction names generalizing p with
  | nil =>
    obtain ⟨rfl, rfl⟩ := Prod.mk.inj hfollow
    exact ⟨rfl, rfl⟩
  | cons name names ih =>
    rw [Workspace.follow] at hfollow ⊢
    cases hp : w.lookup p with
    | directory =>
      rw [hp] at hfollow
      rw [h.workspace_directory hp]
      exact ih hfollow
    | file content =>
      rw [hp] at hfollow
      exact absurd (Prod.mk.inj hfollow).2.symm hblocked
    | absent =>
      rw [hp] at hfollow
      exact absurd (Prod.mk.inj hfollow).2.symm habsent
    | blocked =>
      rw [hp] at hfollow
      exact absurd (Prod.mk.inj hfollow).2.symm hblocked

/-- A location of something is that of the same after an addition. -/
theorem find_eq (h : Adds archives w.tree tree) {l : Location} {q : Path} {found : FileTree.Lookup}
    (hfind : w.find l = (q, found)) (habsent : found ≠ .absent) (hblocked : found ≠ .blocked) :
    w.lookup q = found ∧ { w with tree := tree : Workspace }.find l =
      (q, { w with tree := tree : Workspace }.lookup q) := by
  unfold Workspace.find at hfind ⊢
  split at hfind
  · exact h.follow_eq hfind habsent hblocked
  · exact absurd (Prod.mk.inj hfind).2.symm habsent

end Adds

/-! ## Loading -/

/-- An element of a class path stands for one file or for the files below a directory. -/
theorem filesOf_eq_ok_iff {w : Workspace} {path : Bytes} {files : List (Bytes × Bytes)} :
    filesOf w path = .ok files ↔
      (∃ q content, w.find (Location.ofText (w.fullName path)) = (q, .file content) ∧
        isLoadableName (w.fullName path) = true ∧ files = [(w.fullName path, content)]) ∨
      ∃ directory, w.find (Location.ofText (w.fullName path)) = (directory, .directory) ∧
        files = filesBelow w (Location.ofText (w.fullName path)) directory := by
  unfold filesOf
  dsimp only
  rcases w.find (Location.ofText (w.fullName path)) with ⟨q, found⟩
  cases found with
  | file content =>
    by_cases hname : isLoadableName (w.fullName path) = true
    · simp [hname, eq_comm]
    · simp [hname]
  | directory =>
    simp only [Except.ok.injEq, Prod.mk.injEq, reduceCtorEq, and_false, false_and, exists_false,
      false_or, and_true]
    exact ⟨fun h => ⟨q, rfl, h.symm⟩, fun ⟨_, hq, h⟩ => hq ▸ h.symm⟩
  | absent => simp
  | blocked => simp

/-- What is added below a directory can be read and changes nothing of what the files hold. -/
theorem Adds.holdSame {t t' : FileTree} (h : Adds archives t t') {root directory : Path}
    (l : Location) (hdirectory : ∀ path, t.lookup path ≠ .directory → directory ≠ root ++ path) :
    HoldSame archives (t.nodes.flatMap (located root l directory))
      (t'.nodes.flatMap (located root l directory)) := by
  cases h with
  | directory before after path fresh =>
    simp only [List.flatMap_append, List.flatMap_cons]
    exact .refl _
  | classFile before after path name content fresh named isClass rejected =>
    -- the directory is not the new file, so the file is known by a text that ends with its name
    have habsent : FileTree.lookup ⟨before ++ after⟩ path ≠ .directory :=
      lookup_ne_directory named fun hfound => fresh (List.mem_map_of_mem (mem_of_lookup hfound))
    have hnew : HoldSame archives [] (located root l directory (path, some content)) := by
      refine .of_rejected fun file hfile => ?_
      obtain ⟨hcontent, hends⟩ := endsIn_of_mem_located (hdirectory path habsent) named hfile
      exact ⟨(isClassName_eq hends).trans isClass, hcontent ▸ rejected⟩
    simp only [List.flatMap_append, List.flatMap_cons]
    exact .append (.refl _) (hnew.append (.refl _))
  | archiveMember before after path name old new first named isArchive adds =>
    have hfile : FileTree.lookup ⟨before ++ (path, some old) :: after⟩ path ≠ .directory := by
      refine lookup_ne_directory named fun hfound => ?_
      cases (lookup_first first).symm.trans hfound
    have hnew : HoldSame archives (located root l directory (path, some old))
        (located root l directory (path, some new)) := by
      rcases located_eq root l directory path with hnone | ⟨text, htext⟩
      · rw [hnone, hnone]
        exact .refl []
      · have hmem : (text, old) ∈ located root l directory (path, some old) := by
          rw [htext]
          exact List.mem_cons_self
        obtain ⟨-, hends⟩ := endsIn_of_mem_located (hdirectory path hfile) named hmem
        rw [htext, htext]
        exact .of_addsMember ((isArchiveName_eq hends).trans isArchive) adds
    simp only [List.flatMap_append, List.flatMap_cons]
    exact .append (.refl _) (hnew.append (.refl _))

namespace Adds

variable {w : Workspace} {tree : FileTree}

/-- An element of a class path stands for files that hold the same after an addition. -/
theorem filesOf_eq_ok (h : Adds archives w.tree tree) {path : Bytes} {files : List (Bytes × Bytes)}
    (hfiles : filesOf w path = .ok files) :
    ∃ files', filesOf { w with tree := tree } path = .ok files' ∧
      HoldSame archives files files' := by
  simp only [filesOf_eq_ok_iff] at hfiles ⊢
  rcases hfiles with ⟨q, content, hfind, hname, rfl⟩ | ⟨directory, hfind, rfl⟩
  · obtain ⟨hlookup, hfind'⟩ := h.find_eq hfind (by simp) (by simp)
    obtain ⟨content', hlookup', hgrows⟩ := h.workspace_file hlookup
    rw [hlookup'] at hfind'
    refine ⟨_, .inl ⟨q, content', hfind', hname, rfl⟩, ?_⟩
    rcases hgrows with rfl | ⟨name, hlast, harchive, hadds⟩
    · exact .refl _
    -- whether it is an archive is told from the location, which ends like the path in the tree
    · obtain ⟨name', hlast', hends⟩ := endsIn_of_find hname hfind
      obtain rfl : name' = name := Option.some.inj (hlast'.symm.trans hlast)
      exact .of_addsMember ((isArchiveName_eq hends).trans harchive) hadds
  · obtain ⟨hlookup, hfind'⟩ := h.find_eq hfind (by simp) (by simp)
    rw [h.workspace_directory hlookup] at hfind'
    refine ⟨_, .inr ⟨directory, hfind', rfl⟩, ?_⟩
    rw [filesBelow_eq, filesBelow_eq]
    refine (h.holdSame _ fun path hpath heq => hpath ?_).mergeSort
    rwa [heq, Workspace.lookup, if_pos (List.isPrefixOf_iff_prefix.mpr (List.prefix_append _ _)),
      List.drop_left] at hlookup

/-- An element of a class path that could be loaded can be loaded after an addition and gives the
same classes. -/
theorem classesAt_eq (h : Adds archives w.tree tree) {path : Bytes}
    (hloads : Loads archives w path) : Loads archives { w with tree := tree } path ∧
      classesAt archives { w with tree := tree } path = classesAt archives w path := by
  obtain ⟨files, hfiles, hreadable⟩ := hloads
  obtain ⟨files', hfiles', hsame⟩ := h.filesOf_eq_ok hfiles
  refine ⟨⟨files', hfiles', hsame.readable hreadable⟩, ?_⟩
  rw [ClassPath.classesAt_eq hfiles, ClassPath.classesAt_eq hfiles', hsame.flatMap_classesIn]

/-- Loading gives the same classes after an addition. -/
theorem loadClasses_eq (h : Adds archives w.tree tree) {paths : List Bytes}
    {cs : List ClassFile.Class} (hload : loadClasses archives w paths = .ok cs) :
    loadClasses archives { w with tree := tree } paths = .ok cs := by
  rw [loadClasses_eq_ok_iff] at hload ⊢
  obtain ⟨hloads, rfl⟩ := hload
  refine ⟨fun path hpath => (h.classesAt_eq (hloads path hpath)).1, ?_⟩
  rw [List.flatMap_congr fun path hpath => (h.classesAt_eq (hloads path hpath)).2]

end Adds

/-- Loading gives the same classes after any number of additions. -/
theorem loadClasses_of_additions {w : Workspace} {paths : List Bytes} {cs : List ClassFile.Class}
    (hload : loadClasses archives w paths = .ok cs) {tree : FileTree}
    (h : Relation.ReflTransGen (Adds archives) w.tree tree) :
    loadClasses archives { w with tree := tree } paths = .ok cs := by
  induction h with
  | refl => exact hload
  | tail _ hstep ih => exact hstep.loadClasses_eq (w := { w with tree := _ }) ih

end ClassPath

end ReturnAudit
