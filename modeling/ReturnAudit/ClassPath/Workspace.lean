import ReturnAudit.ClassPath.FileTree

/-!
# Workspaces

What a run can see of the files of a machine, and the locations by which it names them. A location
has a scheme, a host and the text of a path. The host is shown and never asked. A path is followed
name by name, so that two dots only lead back from what is a directory.
-/

namespace ReturnAudit

/-- Where a file or directory is looked for. -/
structure Location where
  /-- How the location is reached. -/
  scheme : Bytes
  /-- The host that the location names. -/
  host : Bytes
  /-- The path as it was given: it starts with a slash and does not end with one, or is empty. -/
  path : Bytes
  deriving DecidableEq, Repr

namespace Location

/-- The scheme of the files of this machine. -/
def fileScheme : Bytes := "file"

/-- The host of locations that name none. -/
def localHost : Bytes := "localhost"

/-- What stands between a scheme and a host. -/
def schemeMark : Bytes := "://"

/-- Whether a text is a location with a scheme. -/
def isUrl (text : Bytes) : Bool :=
  Bytes.hasInfix schemeMark text

/-- Whether a byte divides the names of a path. -/
def isSlash (b : UInt8) : Bool := b = 47

/-- The text of a path with one slash in front and none behind. -/
def pathText (text : Bytes) : Bytes :=
  match ((text.dropWhile isSlash).reverse.dropWhile isSlash).reverse with
  | [] => []
  | inner => 47 :: inner

/-- The location that a text describes; without a scheme it is the path of a file. -/
def ofText (text : Bytes) : Location :=
  match Bytes.cutInfix schemeMark text with
  | none => ⟨fileScheme, localHost, pathText text⟩
  | some (scheme, marked) =>
    let rest := marked.drop schemeMark.length
    let host := rest.takeWhile fun b => !isSlash b
    ⟨scheme, if host.isEmpty then localHost else host, pathText (rest.drop host.length)⟩

/-- The text of a location. -/
def text (l : Location) : Bytes :=
  l.scheme ++ schemeMark ++ l.host ++ l.path

/-- The names that lead to a location, with those that lead nowhere and back; `none` when the
location is not one of this machine. -/
def names? (l : Location) : Option (List Bytes) :=
  if l.scheme = fileScheme && !l.path.isEmpty then some (Bytes.splitOn 47 l.path) else none

end Location

/-- A file tree, where it stands, and the directory in which names start. -/
structure Workspace where
  /-- The path of the root of the tree. -/
  root : Path
  /-- The path of the working directory. -/
  directory : Path
  /-- What stands below the root. -/
  tree : FileTree

namespace Workspace

/-- The text by which a file or directory is known: locations with a scheme stand for themselves,
and a path is completed from the working directory. -/
def fullName (w : Workspace) (text : Bytes) : Bytes :=
  if Location.isUrl text then text
  else if text.head? = some 47 then Path.below [] (Path.ofAbsolute text)
  else Path.below [] (Path.ofAbsolute (Path.below [] w.directory ++ "/" ++ text))

/-- What stands at a path; outside of the tree only the directories around it are known. -/
def lookup (w : Workspace) (path : Path) : FileTree.Lookup :=
  if w.root.isPrefixOf path then w.tree.lookup (path.drop w.root.length)
  else if path.isPrefixOf w.root then .directory
  else .absent

/-- Follows names from a path. The way ends at the first path that is no directory. -/
def follow (w : Workspace) (path : Path) : List Bytes → Path × FileTree.Lookup
  | [] => (path, w.lookup path)
  | name :: rest =>
    match w.lookup path with
    | .directory => w.follow (path.next name) rest
    | .file _ => (path, .blocked)
    | .absent => (path, .absent)
    | .blocked => (path, .blocked)

/-- The path of a location and what stands there. -/
def find (w : Workspace) (l : Location) : Path × FileTree.Lookup :=
  match l.names? with
  | some names => w.follow [] names
  | none => ([], .absent)

/-- The files below a directory by the names that follow it. -/
def filesBelow (w : Workspace) (directory : Path) : List (Path × Bytes) :=
  w.tree.files.filterMap fun (path, content) =>
    let path := w.root ++ path
    if directory.isPrefixOf path then some (path.drop directory.length, content) else none

end Workspace

end ReturnAudit
