import MapAlgebra.Fault
import MapAlgebra.Files.Path

/-!
# Files

A file tree is what a run sees of the file system: the current directory and, for every known
place, the bytes of a file or a directory. Places are lists of names from the root. Parts `..` of
a path lead to the parent of a directory that must exist.
-/

namespace MapAlgebra

/-- What stands at a place of the file system. -/
inductive Node
  | file (bytes : List UInt8)
  | directory
  deriving DecidableEq, Repr

/-- The names from the root down to a file or directory. -/
abbrev Place := List Text

structure FileTree where
  current : Place
  entries : List (Place × Node)
  deriving Repr

namespace FileTree

/-- What stands at a place; the root is a directory. -/
def node? (tree : FileTree) (place : Place) : Option Node :=
  if place.isEmpty then some .directory
  else (tree.entries.find? fun entry => entry.1 == place).map (·.2)

/-- Follows names from a directory. All but the last have to be directories. -/
def follow (tree : FileTree) : (start : Place) → List Text → Except FileFault Place
  | start, [] => .ok start
  | start, ['.', '.'] :: rest => tree.follow start.dropLast rest
  | start, [name] => .ok (start ++ [name])
  | start, name :: rest =>
      match tree.node? (start ++ [name]) with
      | some .directory => tree.follow (start ++ [name]) rest
      | some (.file _) => .error .notDirectory
      | none => .error .notFound

/-- The place a path names. -/
def place (tree : FileTree) (path : Path) : Except FileFault Place :=
  if path.parts.any (·.contains '\x00') then .error .invalidName
  else tree.follow (if path.isAbsolute then [] else tree.current) path.parts

/-- What a path names, if anything. -/
def lookup? (tree : FileTree) (path : Path) : Option Node :=
  match tree.place path with
  | .ok place => tree.node? place
  | .error _ => none

def pathExists (tree : FileTree) (path : Path) : Bool :=
  (tree.lookup? path).isSome

def isDirectory (tree : FileTree) (path : Path) : Bool :=
  tree.lookup? path == some .directory

def isFile (tree : FileTree) (path : Path) : Bool :=
  match tree.lookup? path with
  | some (.file _) => true
  | _ => false

/-- The bytes of a file. -/
def read (tree : FileTree) (path : Path) : Except FileFault (List UInt8) := do
  let place ← tree.place path
  match tree.node? place with
  | some (.file bytes) => .ok bytes
  | some .directory => .error .isDirectory
  | none => .error .notFound

/-- The tree with another node at a place; a new place comes last. -/
def put (tree : FileTree) (place : Place) (node : Node) : FileTree :=
  if tree.entries.any fun entry => entry.1 == place then
    { tree with
      entries := tree.entries.map fun entry => if entry.1 == place then (place, node) else entry }
  else { tree with entries := tree.entries ++ [(place, node)] }

/-- The tree in which a file holds the given bytes. -/
def write (tree : FileTree) (path : Path) (bytes : List UInt8) : Except FileFault FileTree := do
  let place ← tree.place path
  match tree.node? place with
  | some .directory => .error .isDirectory
  | some (.file _) => .ok (tree.put place (.file bytes))
  | none =>
      match tree.node? place.dropLast with
      | some .directory => .ok (tree.put place (.file bytes))
      | some (.file _) => .error .notDirectory
      | none => .error .notFound

/-- Writes bytes from an offset on. What lies between the end of the file and the offset becomes
zero. -/
def writeAt (tree : FileTree) (path : Path) (offset : Nat) (bytes : List UInt8) : FileTree :=
  match tree.read path with
  | .error _ => tree
  | .ok old =>
      let before := old.take offset
      let gap := List.replicate (offset - before.length) 0
      let after := old.drop (offset + bytes.length)
      match tree.write path (before ++ gap ++ bytes ++ after) with
      | .ok tree => tree
      | .error _ => tree

/-- Makes one directory. -/
def makeDirectory (tree : FileTree) (path : Path) : Except FileFault FileTree := do
  let place ← tree.place path
  match tree.node? place with
  | some _ => .error .alreadyExists
  | none =>
      match tree.node? place.dropLast with
      | some .directory => .ok (tree.put place .directory)
      | some (.file _) => .error .notDirectory
      | none => .error .notFound

/-- Makes one directory unless it exists. -/
def ensureDirectory (tree : FileTree) (path : Path) : Except FileFault FileTree :=
  match tree.makeDirectory path with
  | .ok tree => .ok tree
  | .error fault => if tree.isDirectory path then .ok tree else .error fault

/-- Makes a directory and the directories above it that are missing. Those made stay, also when a
later one fails. -/
def ensureDirectories (tree : FileTree) (path : Path) : Except FileFault Unit × FileTree :=
  go path.parts.length path tree
where
  /-- `depth` counts the parts of the path. -/
  go : Nat → Path → FileTree → Except FileFault Unit × FileTree
    | depth, path, tree =>
        match tree.makeDirectory path with
        | .ok tree => (.ok (), tree)
        | .error .notFound =>
            match depth with
            | 0 => (.error .notFound, tree)
            | depth + 1 =>
                match go depth path.parent tree with
                | (.error fault, tree) => (.error fault, tree)
                | (.ok (), tree) =>
                    match tree.ensureDirectory path with
                    | .ok tree => (.ok (), tree)
                    | .error fault => (.error fault, tree)
        | .error fault => if tree.isDirectory path then (.ok (), tree) else (.error fault, tree)

/-- The names in a directory, in the order in which they came. -/
def names (tree : FileTree) (place : Place) : List Text :=
  tree.entries.filterMap fun entry =>
    match entry.1.getLast? with
    | some name => if entry.1.dropLast == place then some name else none
    | none => none

/-- The place of a path seen from the root, each `..` taking the part before it away. -/
def absolute (tree : FileTree) (path : Path) : Path :=
  let start := if path.isAbsolute then [] else tree.current
  let parts := path.parts.foldl
    (fun place part => if part == ['.', '.'] then place.dropLast else place ++ [part]) start
  ⟨['/'], parts⟩

/-- The entries of a later tree that an earlier one does not have. -/
def changes (before after : FileTree) : List (Place × Node) :=
  after.entries.filter fun (place, node) => before.node? place != some node

/-- The path of the current directory. -/
def currentPath (tree : FileTree) : Path := ⟨['/'], tree.current⟩

end FileTree

end MapAlgebra
