import Mathlib.Data.List.ReduceOption
import ReturnAudit.ClassPath.Load
import ReturnAudit.Proofs.Hierarchy.FirstOfEachName
import ReturnAudit.Proofs.Steps

/-!
# What a class path holds

Loading succeeds exactly when every element of the class path stands for files that can be read, and
then it gives the first class of each name among all classes of these files in order. An archive
counts by its members: their names, which of them are directories, and their texts. A file that is
no class leaves a gap and nothing else. All this holds for any reader of archives.
-/

namespace ReturnAudit.ClassPath

open Archive (EntryFault ZipEntry ZipFault)

variable {archives : Archive.Reader}

/-! ## Archives -/

/-- An entry of an archive without the place at which it is stored. -/
structure Member where
  /-- The name. -/
  name : Bytes
  /-- Whether it is a directory. -/
  isDirectory : Bool
  /-- The text, or why it cannot be read. -/
  text : Except EntryFault Bytes
  deriving DecidableEq

/-- The member that an entry stands for. -/
def memberOf (archives : Archive.Reader) (content : Bytes) (e : ZipEntry) : Member :=
  ⟨e.name, e.isDirectory, archives.text content e⟩

/-- The members of an archive in the order of its entries. -/
def members (archives : Archive.Reader) (content : Bytes) : Except ZipFault (List Member) :=
  (archives.entries content).map fun entries => entries.map (memberOf archives content)

namespace Member

/-- Whether a member is a class file to be read. -/
def isWanted (m : Member) : Bool :=
  !m.isDirectory && isClassName m.name && !versionsDirectory.isPrefixOf m.name

/-- The class that a member holds, if it is wanted and can be read as a class. -/
def read? (m : Member) : Option ClassFile.Class :=
  if m.isWanted then m.text.toOption.bind fun text => (ClassFile.parse text).toOption else none

/-- A wanted member gives the class that its text is read as, if it is one. -/
theorem read?_of_text {m : Member} {text : Bytes} (hwanted : m.isWanted = true)
    (h : m.text = .ok text) : m.read? = (ClassFile.parse text).toOption := by
  rw [read?, if_pos hwanted, h]
  rfl

/-- A member that is not wanted gives no class. -/
theorem read?_of_not_wanted {m : Member} (h : m.isWanted = false) : m.read? = none := by
  rw [read?, h]
  rfl

end Member

/-- A member is wanted when its entry is. -/
theorem isWanted_memberOf (content : Bytes) (e : ZipEntry) :
    (memberOf archives content e).isWanted = isWanted e :=
  rfl

/-- Whether all that has to be read of a file can be read. -/
def Readable (archives : Archive.Reader) (file : Bytes × Bytes) : Prop :=
  isArchiveName file.1 = true → ∃ ms, members archives file.2 = .ok ms ∧
    ∀ m ∈ ms, m.isWanted = true → ∃ text, m.text = .ok text

/-- What stands at each position of a file: a class or nothing. -/
def classesIn (archives : Archive.Reader) (file : Bytes × Bytes) :
    List (Option ClassFile.Class) :=
  if isArchiveName file.1 then ((members archives file.2).toOption.getD []).map Member.read?
  else [(ClassFile.parse file.2).toOption]

/-- Reading a class file gives the class that its content is read as, if it is one. -/
theorem classOf?_readClass (location content : Bytes) :
    classOf? (readClass location content) = (ClassFile.parse content).toOption := by
  rw [readClass]
  cases ClassFile.parse content <;> rfl

/-- An entry can be read exactly when its text can, and then it is read as a class file. -/
theorem readEntry_eq_ok_iff {location content : Bytes} {e : ZipEntry} {r : Reading} :
    readEntry archives location content e = .ok r ↔ ∃ text, archives.text content e = .ok text ∧
      r = readClass (location ++ "!/" ++ e.name) text := by
  unfold readEntry
  constructor
  · intro h
    obtain ⟨text, htext, h⟩ := of_bind h
    exact ⟨text, of_mapError htext, (Except.ok.inj h).symm⟩
  · rintro ⟨text, h, rfl⟩
    rw [h]
    rfl

/-- What reading the wanted entries of an archive gives. -/
theorem filterMap_classOf?_entries {location content : Bytes} {entries : List ZipEntry}
    {rs : List Reading}
    (h : List.Forall₂ (fun e r => readEntry archives location content e = .ok r)
      (entries.filter isWanted) rs) :
    rs.filterMap classOf? = entries.filterMap fun e => (memberOf archives content e).read? := by
  induction entries generalizing rs with
  | nil =>
    cases h
    rfl
  | cons e entries ih =>
    rw [List.filter_cons] at h
    by_cases hwanted : isWanted e = true
    · rw [if_pos hwanted] at h
      cases h with
      | cons hr hrs =>
        obtain ⟨text, htext, rfl⟩ := readEntry_eq_ok_iff.mp hr
        have hread : (memberOf archives content e).read? = (ClassFile.parse text).toOption :=
          Member.read?_of_text ((isWanted_memberOf content e).trans hwanted) htext
        rw [List.filterMap_cons, List.filterMap_cons, classOf?_readClass, hread, ih hrs]
    · rw [if_neg hwanted] at h
      have hread : (memberOf archives content e).read? = none :=
        Member.read?_of_not_wanted
          ((isWanted_memberOf content e).trans (Bool.eq_false_iff.mpr hwanted))
      rw [List.filterMap_cons, hread, ih h]

/-- An archive is read exactly when its directory and all wanted members can be read. -/
theorem exists_readArchive_iff {location content : Bytes} :
    (∃ rs, readArchive archives location content = .ok rs) ↔
      ∃ ms, members archives content = .ok ms ∧
        ∀ m ∈ ms, m.isWanted = true → ∃ text, m.text = .ok text := by
  unfold readArchive members
  cases hentries : archives.entries content with
  | error fault => exact iff_of_false (by rintro ⟨rs, h⟩; cases h) (by rintro ⟨ms, h, -⟩; cases h)
  | ok entries =>
    have hread : ∀ e, (∃ r, readEntry archives location content e = .ok r) ↔
        ∃ text, (memberOf archives content e).text = .ok text := by
      intro e
      simp only [readEntry_eq_ok_iff]
      exact ⟨fun ⟨_, text, h, _⟩ => ⟨text, h⟩, fun ⟨text, h⟩ => ⟨_, text, h, rfl⟩⟩
    refine exists_mapM_eq_ok_iff.trans ?_
    constructor
    · intro h
      refine ⟨entries.map (memberOf archives content), rfl, ?_⟩
      refine List.forall_mem_map.mpr fun e he hwanted => ?_
      exact (hread e).mp (h e (List.mem_filter.mpr ⟨he, hwanted⟩))
    · rintro ⟨ms, heq, h⟩ e he
      cases heq
      obtain ⟨he, hwanted⟩ := List.mem_filter.mp he
      exact (hread e).mpr (h _ (List.mem_map_of_mem he) hwanted)

/-! ## Files -/

/-- A file is read exactly when it is readable. -/
theorem exists_readFile_iff {file : Bytes × Bytes} :
    (∃ rs, readFile archives file = .ok rs) ↔ Readable archives file := by
  obtain ⟨location, content⟩ := file
  rw [readFile, Readable]
  by_cases harchive : isArchiveName location = true
  · rw [if_pos harchive, exists_readArchive_iff]
    exact ⟨fun h _ => h, fun h => h harchive⟩
  · rw [if_neg harchive]
    exact iff_of_true ⟨_, rfl⟩ fun h => absurd h harchive

/-- Reading a file gives the classes in it, one after another. -/
theorem filterMap_classOf?_readFile {file : Bytes × Bytes} {rs : List Reading}
    (h : readFile archives file = .ok rs) :
    rs.filterMap classOf? = (classesIn archives file).reduceOption := by
  obtain ⟨location, content⟩ := file
  rw [readFile] at h
  rw [classesIn]
  by_cases harchive : isArchiveName location = true
  · rw [if_pos harchive] at h ⊢
    obtain ⟨entries, hentries, h⟩ := of_bind h
    have hmembers : members archives content = .ok (entries.map (memberOf archives content)) := by
      rw [members, of_mapError hentries]
      rfl
    rw [hmembers, filterMap_classOf?_entries (mapM_eq_ok_iff.mp h)]
    change _ = (List.map Member.read? (entries.map (memberOf archives content))).filterMap id
    rw [List.filterMap_map, List.filterMap_map]
    rfl
  · rw [if_neg harchive] at h ⊢
    obtain rfl := Except.ok.inj h
    rw [List.filterMap_cons, classOf?_readClass]
    cases (ClassFile.parse content).toOption <;> rfl

/-! ## Class paths -/

/-- Whether an element of the class path stands for files that can be read. -/
def Loads (archives : Archive.Reader) (w : Workspace) (path : Bytes) : Prop :=
  ∃ files, filesOf w path = .ok files ∧ ∀ file ∈ files, Readable archives file

/-- The classes of an element of the class path in order. -/
def classesAt (archives : Archive.Reader) (w : Workspace) (path : Bytes) : List ClassFile.Class :=
  ((filesOf w path).toOption.getD []).flatMap fun file => (classesIn archives file).reduceOption

/-- The classes that loading a class path gives. -/
def loadClasses (archives : Archive.Reader) (w : Workspace) (paths : List Bytes) :
    Except Error (List ClassFile.Class) :=
  (loadWith archives w paths).map Loaded.classes

/-- The classes of an element of the class path are those in its files. -/
theorem classesAt_eq {w : Workspace} {path : Bytes} {files : List (Bytes × Bytes)}
    (h : filesOf w path = .ok files) :
    classesAt archives w path =
      files.flatMap fun file => (classesIn archives file).reduceOption := by
  rw [classesAt, h]
  rfl

/-- A class path is read exactly when all its elements stand for files that can be read. -/
theorem exists_readings_iff {w : Workspace} {paths : List Bytes} :
    (∃ rs, readings archives w paths = .ok rs) ↔ ∀ path ∈ paths, Loads archives w path := by
  unfold readings
  constructor
  · rintro ⟨rs, h⟩ path hpath
    obtain ⟨files, hfiles, h⟩ := of_bind h
    obtain ⟨results, hresults, -⟩ := of_bind h
    obtain ⟨found, hfound⟩ := exists_mapM_eq_ok_iff.mp ⟨files, hfiles⟩ path hpath
    have hmem : found ∈ files := (mem_iff_of_mapM hfiles).mpr ⟨path, hpath, hfound⟩
    refine ⟨found, hfound, fun file hfile => exists_readFile_iff.mp ?_⟩
    exact exists_mapM_eq_ok_iff.mp ⟨results, hresults⟩ file (List.mem_flatten_of_mem hmem hfile)
  · intro h
    obtain ⟨files, hfiles⟩ := exists_mapM_eq_ok_iff.mpr fun path hpath =>
      (h path hpath).imp fun _ hfound => hfound.1
    obtain ⟨results, hresults⟩ :
        ∃ results, files.flatten.mapM (readFile archives) = .ok results := by
      refine exists_mapM_eq_ok_iff.mpr fun file hfile => exists_readFile_iff.mpr ?_
      obtain ⟨found, hmem, hfile⟩ := List.mem_flatten.mp hfile
      obtain ⟨path, hpath, hfound⟩ := (mem_iff_of_mapM hfiles).mp hmem
      obtain ⟨found', hfound', hreadable⟩ := h path hpath
      obtain rfl : found = found' := Except.ok.inj (hfound.symm.trans hfound')
      exact hreadable file hfile
    refine ⟨results.flatten, ?_⟩
    rw [bind_of_ok hfiles, bind_of_ok hresults]
    rfl

/-- Reading a class path gives the classes of its elements, one after another. -/
theorem filterMap_classOf?_readings {w : Workspace} {paths : List Bytes} {rs : List Reading}
    (h : readings archives w paths = .ok rs) :
    rs.filterMap classOf? = paths.flatMap (classesAt archives w) := by
  obtain ⟨files, hfiles, h⟩ := of_bind h
  obtain ⟨results, hresults, h⟩ := of_bind h
  obtain rfl := Except.ok.inj h
  calc results.flatten.filterMap classOf?
      = results.flatMap fun rs => rs.filterMap classOf? := by
        rw [List.filterMap_flatten, List.flatMap_def]
    _ = files.flatten.flatMap fun file => (classesIn archives file).reduceOption :=
        flatMap_of_mapM hresults fun _ _ => filterMap_classOf?_readFile
    _ = files.flatMap fun found => found.flatMap fun file =>
          (classesIn archives file).reduceOption := by
        rw [← List.flatMap_id, List.flatMap_assoc]
        rfl
    _ = paths.flatMap (classesAt archives w) :=
        flatMap_of_mapM hfiles fun _ _ hfound => (classesAt_eq hfound).symm

/-- Loading a class path gives the first class of each name among all classes of its elements. -/
theorem loadClasses_eq_ok_iff {w : Workspace} {paths : List Bytes} {cs : List ClassFile.Class} :
    loadClasses archives w paths = .ok cs ↔ (∀ path ∈ paths, Loads archives w path) ∧
      cs = firstOfEachName [] (paths.flatMap (classesAt archives w)) := by
  rw [← exists_readings_iff]
  constructor
  · intro h
    obtain ⟨loaded, hloaded, rfl⟩ := of_map h
    obtain ⟨rs, hrs, hloaded⟩ := of_bind hloaded
    obtain rfl := Except.ok.inj hloaded
    exact ⟨⟨rs, hrs⟩, by rw [← filterMap_classOf?_readings hrs]⟩
  · rintro ⟨⟨rs, hrs⟩, rfl⟩
    rw [loadClasses, loadWith, bind_of_ok hrs, ← filterMap_classOf?_readings hrs]
    rfl

end ReturnAudit.ClassPath
