import MapAlgebra.CommandLine.Program
import MapAlgebra.Number.Double

/-!
# Command line

The program sees the files below the current directory, the directory of the script and the output
directory as they are when it starts. What it changes is written back when it ends.
-/

namespace MapAlgebra

/-- Reads what stands at a path into the entries of a tree. -/
partial def readEntries (place : Place) (path : String) (isDirectory : Bool) :
    IO (List (Place × Node)) := do
  if !isDirectory then
    return [(place, .file (← IO.FS.readBinFile path).toList)]
  let mut entries := [(place, Node.directory)]
  for entry in ← (← IO.FS.realPath path).readDir do
    let name := entry.fileName
    let inner ← readEntries (place ++ [name.toList]) s!"{path}/{name}" (← entry.path.isDir)
    entries := entries ++ inner
  return entries

/-- The directories above a place, from the root down. -/
def directoriesAbove (place : Place) : List (Place × Node) :=
  ((List.range place.length).drop 1).map fun n => (place.take n, .directory)

/-- The places without those below another one. -/
def outermost (places : List Place) : List Place :=
  let places := places.eraseDups
  places.filter fun place => !places.any fun other => other != place && other.isPrefixOf place

/-- Reads what stands at and below places. -/
def readPlaces (current : Place) (places : List Place) : IO FileTree := do
  let mut tree : FileTree := { current, entries := [] }
  for place in outermost places do
    let path := str (Path.toText ⟨['/'], place⟩)
    for (above, node) in directoriesAbove place do
      tree := tree.put above node
    let entries ← try readEntries place path (← (← IO.FS.realPath path).isDir)
      catch _ => pure []
    tree := { tree with entries := tree.entries ++ entries }
  return tree

/-- The script of a command line and the directories that it works in. -/
def sight (current : FileTree) (arguments : List Text) : Option Path × List Place :=
  match CommandLine.Choices.ofArguments arguments with
  | .error _ => (none, [])
  | .ok choices =>
      let script := Path.ofText (choices.script.getD [])
      let output := current.absolute (Path.ofText choices.output)
      (some script, [(current.absolute script).parent.parts, output.parts])

/-- The names that the lines of a script ask the environment for. -/
def wantedNames (files : FileTree) (script : Path) : List Text :=
  let plan : Script.Plan Float Float := { settings := { base := (files.absolute script).parent } }
  match Script.Plan.readScript files script with
  | .error _ => []
  | .ok text =>
      match plan.prepareLines files text with
      | .error _ => []
      | .ok lines => lines.flatMap fun line => Script.references line.text

/-- The values of names in the environment. -/
def readEnvironment (names : List Text) : IO Script.Environment := do
  let found ← names.eraseDups.mapM fun name => do
    return (← IO.getEnv (str name)).map fun value => (name, value.toList)
  return found.filterMap id

/-- Writes the entries that are not as they were before. -/
def writeEntries (before after : FileTree) : IO Unit := do
  for (place, node) in before.changes after do
    let path := str (Path.toText ⟨['/'], place⟩)
    match node with
    | .directory => IO.FS.createDirAll path
    | .file bytes => IO.FS.writeBinFile path ⟨bytes.toArray⟩

/-- The wording of faults that come from the files or from numbers. -/
def describeFault (fault : Fault) : String :=
  match fault with
  | .file .notFound => "No such file or directory"
  | .file .notDirectory => "Not a directory"
  | .file .isDirectory => "Is a directory"
  | .file .alreadyExists => "File exists"
  | .file .invalidName => "Invalid file name"
  | .file .notText => "File is not text"
  | .line number text _ => s!"Error in line {number}: {str text}"
  | _ => "Invalid value"

end MapAlgebra

open MapAlgebra in
def main (arguments : List String) : IO UInt32 := do
  let arguments := arguments.map String.toList
  let current := (Path.ofText (toString (← IO.currentDir)).toList).parts
  let (script, places) := sight { current, entries := [] } arguments
  let files ← readPlaces current (current :: places)
  let environment ← readEnvironment ((script.map (wantedNames files)).getD [])
  let program : Run Float Float Float32 Nat :=
    CommandLine.program describeFault environment arguments
  let (outcome, session) := program.from? { files }
  writeEntries files session.files
  for record in CommandLine.shownRecords arguments session.log do
    IO.eprintln record.text
  match outcome with
  | .ok code => return UInt32.ofNat code
  | .error fault =>
      IO.eprintln (fault.message?.getD (describeFault fault))
      return 1
