import ReturnAudit.Command.Run
import ReturnAudit.Report.Clock
import Std.Time.DateTime.Timestamp

/-!
# The program

Reads the files that the arguments name, runs the command on them and writes its outcome.
-/

namespace ReturnAudit.Program

/-- A text of the file system; bytes that are no text have no file. -/
private def nameOf (s : Bytes) : String :=
  (String.fromUTF8? ⟨s.toArray⟩).getD ""

/-- The content of a file. -/
private def contentOf (path : Path) : IO Bytes := do
  return (← IO.FS.readBinFile (nameOf (Path.below [] path))).toList

/-- Whether a path leads to a directory. The root always does. -/
private def isDirectory (path : Path) : IO Bool := do
  if path.isEmpty then return true
  try
    return (← (← IO.FS.realPath (nameOf (Path.below [] path))).isDir)
  catch _ => return false

/-- Adds a file, or a directory with everything below it. -/
private partial def addAll (tree : FileTree) (path : Path) : IO FileTree := do
  if ← isDirectory path then
    let mut tree := (tree.makeDirectories path).getD tree
    let directory ← IO.FS.realPath (nameOf (Path.below [] path ++ "/"))
    for entry in ← directory.readDir do
      tree ← addAll tree (path ++ [Bytes.ofString entry.fileName])
    return tree
  try
    return (tree.writeFile path (← contentOf path)).getD tree
  catch _ => return tree

/-- Adds what names lead to, or the first thing on the way that is no directory. -/
private def addReachable (tree : FileTree) (names : List Bytes) : IO FileTree := do
  let mut tree := tree
  let mut path : Path := []
  for name in names do
    path := path.next name
    unless ← isDirectory path do return ← addAll tree path
    tree := (tree.makeDirectories path).getD tree
  addAll tree path

/-- The files that the arguments name. -/
private def workspace (directory : Bytes) (arguments : List Bytes) : IO Workspace := do
  let mut w : Workspace := ⟨[], Path.ofAbsolute directory, {}⟩
  if let .ok o := Command.Options.parse arguments then
    unless o.help || o.version || (Command.CompletionRequest.ofArguments? arguments).isSome do
      for path in o.config :: o.classPath ++ o.auxClassPath do
        unless path.isEmpty do
          if let some names := (Location.ofText (w.fullName path)).names? then
            w := { w with tree := ← addReachable w.tree names }
  return w

/-- Writes a text and waits until it is out. -/
private def write (stream : IO.FS.Stream) (text : Bytes) : IO Unit := do
  stream.write ⟨text.toArray⟩
  stream.flush

/-- Runs the command with its arguments and gives its exit status. -/
def run (arguments : List String) : IO UInt32 := do
  let arguments := arguments.map Bytes.ofString
  let w ← workspace (Bytes.ofString (← IO.currentDir).toString) arguments
  let start ← IO.monoNanosNow
  let outcome ← match Command.perform w arguments with
    | .error e => pure (.ofError e)
    | .ok done => do
      let stop ← IO.monoNanosNow
      let now ← Std.Time.Timestamp.now
      let time := Clock.text now.toSecondsSinceUnixEpoch.val.toNat
      pure (done.outcome ⟨Command.programVersion, time, (stop - start : Nat)⟩)
  write (← IO.getStderr) outcome.complaint
  write (← IO.getStdout) outcome.output
  return outcome.status.toUInt32

end ReturnAudit.Program

/-- The program. -/
def main (arguments : List String) : IO UInt32 :=
  ReturnAudit.Program.run arguments
