import ReturnAudit.Archive.Zip
import ReturnAudit.ClassPath.Workspace
import ReturnAudit.Hierarchy

/-!
# Loading classes

A class path lists class files, archives and directories. All classes that can be reached from it
are read in the order of the path, inside a directory in the order of the locations, and inside an
archive in the order of its entries. Class files that cannot be read are skipped, and of several
classes with one name the first stands. How archives are read is a parameter.
-/

namespace ReturnAudit.ClassPath

open ClassFile (ReadError)
open Archive (EntryFault ZipEntry ZipFault)

/-- Why classes could not be loaded. -/
inductive Error where
  /-- Nothing stands at a path; the path may lead through a file. -/
  | missing (path location : Bytes) (blocked : Bool)
  /-- A path names a file that cannot hold classes. -/
  | notLoadable (path : Bytes)
  /-- An archive cannot be read. -/
  | archive (location : Bytes) (fault : ZipFault)
  /-- An entry of an archive cannot be read. -/
  | entry (name location : Bytes) (fault : EntryFault)
  deriving DecidableEq, Repr

/-- Why a file cannot be opened. -/
def openFault (location : Bytes) (blocked : Bool) : Bytes :=
  let cause : Bytes := if blocked then "not a directory" else "no such file or directory"
  "open " ++ location ++ ": " ++ cause

/-- The wording of an error. -/
def Error.message : Error → Bytes
  | missing path location blocked =>
    "listing " ++ path ++ ": unable to open " ++ location ++ ": " ++ openFault location blocked
  | notLoadable path => "listing " ++ path ++ ": not a class file, jar or directory"
  | archive location fault => "opening archive " ++ location ++ ": " ++ fault.message
  | entry name location (.opening fault) =>
    "opening " ++ name ++ " in " ++ location ++ ": " ++ fault.message
  | entry name location (.reading fault) =>
    "reading " ++ name ++ " in " ++ location ++ ": " ++ fault.message

/-- Whether a name is that of a class file. -/
def isClassName (name : Bytes) : Bool :=
  (Bytes.ofString ".class").isSuffixOf name

/-- Whether a name is that of an archive. -/
def isArchiveName (name : Bytes) : Bool :=
  (Bytes.ofString ".jar").isSuffixOf name || (Bytes.ofString ".zip").isSuffixOf name

/-- Whether a name is that of a file that can hold classes. -/
def isLoadableName (name : Bytes) : Bool :=
  isClassName name || isArchiveName name

/-- The class files and archives below a directory by their locations, in the order of these. -/
def filesBelow (w : Workspace) (l : Location) (directory : Path) : List (Bytes × Bytes) :=
  let files := (w.filesBelow directory).map fun (path, content) => (Path.below l.text path, content)
  (files.filter fun (file, _) => isLoadableName file).mergeSort fun a b => Bytes.le a.1 b.1

/-- The class files and archives that an element of the class path stands for. -/
def filesOf (w : Workspace) (path : Bytes) : Except Error (List (Bytes × Bytes)) :=
  let name := w.fullName path
  let l := Location.ofText name
  match w.find l with
  | (_, .absent) => .error (.missing path l.path false)
  | (_, .blocked) => .error (.missing path l.path true)
  | (_, .file content) =>
    if isLoadableName name then .ok [(name, content)] else .error (.notLoadable path)
  | (directory, .directory) => .ok (filesBelow w l directory)

/-- What reading a class file gives: a class, or the location and the fault of a file that is
skipped. -/
abbrev Reading := Except (Bytes × ReadError) ClassFile.Class

/-- Reads a class file. -/
def readClass (location content : Bytes) : Reading :=
  (ClassFile.parse content).mapError fun fault => (location, fault)

/-- Where an archive keeps classes for later versions of the platform; they are left out. -/
def versionsDirectory : Bytes := "META-INF/versions/"

/-- Whether an entry of an archive is a class file to be read. -/
def isWanted (e : ZipEntry) : Bool :=
  !e.isDirectory && isClassName e.name && !versionsDirectory.isPrefixOf e.name

/-- Reads an entry of an archive. -/
def readEntry (archives : Archive.Reader) (location content : Bytes) (e : ZipEntry) :
    Except Error Reading := do
  let text ← (archives.text content e).mapError (Error.entry e.name location)
  return readClass (location ++ "!/" ++ e.name) text

/-- Reads the classes of an archive. -/
def readArchive (archives : Archive.Reader) (location content : Bytes) :
    Except Error (List Reading) := do
  let entries ← (archives.entries content).mapError (Error.archive location)
  (entries.filter isWanted).mapM (readEntry archives location content)

/-- Reads a class file or an archive. -/
def readFile (archives : Archive.Reader) (file : Bytes × Bytes) : Except Error (List Reading) :=
  let (location, content) := file
  if isArchiveName location then readArchive archives location content
  else .ok [readClass location content]

/-- What loading gives. -/
structure Loaded where
  /-- The classes, each name once. -/
  classes : List ClassFile.Class
  /-- The locations that were skipped and why. -/
  skipped : List (Bytes × ReadError)
  /-- The names of the classes that an earlier class of the same name hides. -/
  shadowed : List Bytes

/-- The names of the classes that follow one of the same name, or of a name in `seen`. -/
def shadowedNames (seen : List Bytes) : List ClassFile.Class → List Bytes
  | [] => []
  | c :: rest =>
    if seen.contains c.name then c.name :: shadowedNames seen rest
    else shadowedNames (c.name :: seen) rest

/-- The class, if one was read. -/
def classOf? : Reading → Option ClassFile.Class
  | .ok c => some c
  | .error _ => none

/-- What was skipped, if no class was read. -/
def faultOf? : Reading → Option (Bytes × ReadError)
  | .ok _ => none
  | .error fault => some fault

/-- Everything that can be read from a class path, in order. All elements are looked up before the
first file is read. -/
def readings (archives : Archive.Reader) (w : Workspace) (paths : List Bytes) :
    Except Error (List Reading) := do
  let files ← paths.mapM (filesOf w)
  let results ← files.flatten.mapM (readFile archives)
  return results.flatten

/-- Loads the classes of a class path whose archives are read by a given reader. -/
def loadWith (archives : Archive.Reader) (w : Workspace) (paths : List Bytes) :
    Except Error Loaded := do
  let results ← readings archives w paths
  let classes := results.filterMap classOf?
  return ⟨firstOfEachName [] classes, results.filterMap faultOf?, shadowedNames [] classes⟩

/-- Loads the classes of a class path. Archives are read leniently. -/
def load (w : Workspace) (paths : List Bytes) : Except Error Loaded :=
  loadWith (Archive.Zip.reader .lenient) w paths

end ReturnAudit.ClassPath
