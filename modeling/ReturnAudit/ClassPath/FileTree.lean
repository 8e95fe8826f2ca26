import ReturnAudit.Text.Bytes

/-!
# File trees

The files and directories that a run can see. A path is the list of the names that lead to a file.
Every file and directory stands in directories.
-/

namespace ReturnAudit

/-- The names that lead to a file or directory. -/
abbrev Path := List Bytes

namespace Path

/-- Follows one name: a name of nothing and a dot stay, and two dots go back, if they can. -/
def next (path : Path) (name : Bytes) : Path :=
  if name.isEmpty || name = Bytes.ofString "." then path
  else if name = Bytes.ofString ".." then path.dropLast
  else path ++ [name]

/-- The path that a text with slashes describes from the root of all files, above which nothing
stands. -/
def ofAbsolute (text : Bytes) : Path :=
  (Bytes.splitOn 47 text).foldl next []

/-- The path after one more name; `none` when it would lead out of the start. -/
private def nextInside? (path : Path) (name : Bytes) : Option Path :=
  if name = Bytes.ofString ".." && path.isEmpty then none else some (path.next name)

/-- The path that a text with slashes describes; `none` when it leads out of the directory that it
starts in. -/
def ofText? (text : Bytes) : Option Path :=
  (Bytes.splitOn 47 text).foldlM nextInside? []

/-- Whether files can have the names of a path: a name has at most 255 bytes, and none of them is
zero. -/
def isStorable (path : Path) : Bool :=
  path.all fun name => name.length ≤ 255 && !name.contains 0

/-- The paths on the way from the root to a path, both included. -/
def wayTo (path : Path) : List Path :=
  (List.range (path.length + 1)).map fun n => path.take n

/-- The text of a path below a location. -/
def below (location : Bytes) (path : Path) : Bytes :=
  path.foldl (fun text name => text ++ "/" ++ name) location

end Path

/-- Files with their contents, and directories. -/
structure FileTree where
  /-- The files and directories by their paths; a directory has no content. -/
  nodes : List (Path × Option Bytes) := []
  deriving DecidableEq, Repr

namespace FileTree

/-- What stands at a path. -/
inductive Lookup where
  /-- A file. -/
  | file (content : Bytes)
  /-- A directory. -/
  | directory
  /-- Nothing. -/
  | absent
  /-- Nothing, because the path leads through a file. -/
  | blocked
  deriving DecidableEq, Repr

/-- Whether a file stands on the way to a path. -/
private def throughFile (tree : FileTree) (path : Path) : Bool :=
  (Path.wayTo path).any fun outer =>
    outer != path && tree.nodes.any fun (p, content) => p = outer && content.isSome

/-- What stands at a path. -/
def lookup (tree : FileTree) (path : Path) : Lookup :=
  match path with
  | [] => .directory
  | path =>
    match tree.nodes.lookup path with
    | some (some content) => .file content
    | some none => .directory
    | none => if throughFile tree path then .blocked else .absent

/-- Makes a directory and the directories around it, unless a file is in the way or a name cannot be
stored. -/
def makeDirectories (tree : FileTree) (path : Path) : Option FileTree :=
  if !Path.isStorable path then none
  else (Path.wayTo path).foldl (fun tree outer => do
    let tree ← tree
    match tree.lookup outer with
    | .file _ | .blocked => none
    | .directory => some tree
    | .absent => some ⟨tree.nodes ++ [(outer, none)]⟩) (some tree)

/-- Writes a file, and makes the directories around it. -/
def writeFile (tree : FileTree) (path : Path) (content : Bytes) : Option FileTree := do
  guard (Path.isStorable path)
  let tree ← tree.makeDirectories path.dropLast
  match tree.lookup path with
  | .directory | .blocked => none
  | .absent => some ⟨tree.nodes ++ [(path, some content)]⟩
  | .file _ =>
    some ⟨tree.nodes.map fun (p, old) => if p = path then (p, some content) else (p, old)⟩

/-- The files with their paths. -/
def files (tree : FileTree) : List (Path × Bytes) :=
  tree.nodes.filterMap fun (path, content) => content.map (path, ·)

end FileTree

end ReturnAudit
