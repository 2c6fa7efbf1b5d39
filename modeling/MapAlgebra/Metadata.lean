import MapAlgebra.Files.Bytes
import MapAlgebra.Files.Tree

/-!
# Metadata

A short text file beside a result grid that tells how the grid came about.
-/

namespace MapAlgebra

structure Metadata where
  description : Text := []
  process : Text := []
  source : Text := []
  producer : Text := "idfexp".toList
  deriving DecidableEq, Repr

namespace Metadata

private def line (key : String) (value : Text) : Text :=
  key.toList ++ [':', ' '] ++ value ++ ['\n']

/-- One line for each field. -/
def toText (metadata : Metadata) : Text :=
  line "Description" metadata.description ++ line "Process" metadata.process ++
    line "Source" metadata.source ++ line "Producer" metadata.producer

/-- The path of the metadata of a grid file. -/
def pathFor (grid : Path) : Path :=
  grid.withSuffix ['.', 'M', 'E', 'T']

end Metadata

end MapAlgebra
