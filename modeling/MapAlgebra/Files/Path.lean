import MapAlgebra.Text.Basic

/-!
# Paths

A path is a root and a list of parts. Repeated slashes and parts `.` disappear when a path is read
from text; parts `..` stay, and only a slash divides parts.
-/

namespace MapAlgebra

/-- A path in the file system: absolute when it has a root, relative otherwise. -/
structure Path where
  /-- Empty, one slash, or the two slashes that a path may begin with. -/
  root : Text
  parts : List Text
  deriving DecidableEq, Repr

namespace Path

/-- The pieces of a text between slashes. -/
def pieces (text : Text) : List Text :=
  match text with
  | [] => [[]]
  | '/' :: rest => [] :: pieces rest
  | c :: rest =>
      match pieces rest with
      | [] => [[c]]
      | piece :: more => (c :: piece) :: more

private def rootOf (text : Text) : Text :=
  match text with
  | '/' :: '/' :: '/' :: _ => ['/']
  | '/' :: '/' :: _ => ['/', '/']
  | '/' :: _ => ['/']
  | _ => []

def ofText (text : Text) : Path where
  root := rootOf text
  parts := (pieces text).filter fun piece => piece != [] && piece != ['.']

/-- The path of the current directory. -/
def here : Path := ⟨[], []⟩

/-- The parts with slashes between them. -/
def joined : List Text → Text
  | [] => []
  | [part] => part
  | part :: rest => part ++ '/' :: joined rest

def toText (path : Path) : Text :=
  if path.root.isEmpty && path.parts.isEmpty then ['.'] else path.root ++ joined path.parts

def isAbsolute (path : Path) : Bool :=
  !path.root.isEmpty

/-- The second path as seen from the first; an absolute second path is taken as it is. -/
def join (path other : Path) : Path :=
  if other.isAbsolute then other else ⟨path.root, path.parts ++ other.parts⟩

def parent (path : Path) : Path :=
  ⟨path.root, path.parts.dropLast⟩

/-- The last part, empty when there is none. -/
def name (path : Path) : Text :=
  path.parts.getLastD []

/-- A file name divided at its last dot. A dot at either end divides nothing. -/
def splitSuffix (name : Text) : Text × Text :=
  let tail := name.reverse.takeWhile (· != '.')
  let stem := name.take (name.length - tail.length - 1)
  if tail.length < name.length && !tail.isEmpty && !stem.isEmpty then (stem, '.' :: tail.reverse)
  else (name, [])

def stem (path : Path) : Text :=
  (splitSuffix path.name).1

def suffix (path : Path) : Text :=
  (splitSuffix path.name).2

/-- The path with another suffix on its last part. -/
def withSuffix (path : Path) (suffix : Text) : Path :=
  ⟨path.root, path.parts.dropLast ++ [path.stem ++ suffix]⟩

end Path

end MapAlgebra
