import MapAlgebra.Grid.Combine
import MapAlgebra.Idf.Header
import MapAlgebra.Log
import MapAlgebra.Metadata

/-!
# Grid files

Reading a grid reads its header; the cells follow when they are needed and can be given up again as
long as the file is there. Writing makes the directories above the file.
-/

namespace MapAlgebra

variable {K V S : Type} [Coordinate K] [Number V] [Cell S V]

namespace Idf

def readHeader (files : FileTree) (path : Path) : Except Fault (Header K V) :=
  match files.read path with
  | .error fault => .error (.file fault)
  | .ok bytes =>
      match Header.decode path.toText bytes with
      | .ok header => .ok header
      | .error fault => .error (.format fault)

/-- The cells that follow a header. Their number has to be that of the header. -/
def decodeCells (path : Text) (header : Header K V) (bytes : List UInt8) :
    Except Fault (Raster S) :=
  let words := Bytes.toWords (bytes.drop header.length)
  let wanted := header.rows * header.cols
  let found := if 0 ≤ wanted then words.take wanted.toNat else words
  if (found.length : Int) != wanted then .error (.format (.cellCount wanted path found.length))
  else if header.rows < 0 || header.cols < 0 then .error (.grid .shapesDiffer)
  else
    let cells := found.map fun word => (Cell.ofSingle (Float32.ofBits word) : S)
    match Raster.ofList? header.rows.toNat header.cols.toNat cells with
    | some raster => .ok raster
    | none => .error (.grid .shapesDiffer)

def readCells (files : FileTree) (path : Path) : Except Fault (Raster S) := do
  let header : Header K V ← readHeader files path
  match files.read path with
  | .error fault => throw (.file fault)
  | .ok bytes => decodeCells path.toText header bytes

/-- What writing a grid puts into its file, and the fault that ends it early. -/
def encode (grid : Grid K V S) (cells : Raster S) : List UInt8 × Except Fault Unit :=
  let header := Header.ofGrid grid cells
  let parts := header.parts
  let head := (parts.takeWhile Option.isSome).flatMap fun part => part.getD []
  if !header.countsFit then ([], .error (.format .truncated))
  else if parts.all Option.isSome then
    let body := cells.toList.flatMap fun cell => Bytes.ofWord (Cell.toSingle cell).toBits
    (head ++ body, .ok ())
  else (head, .error (.number .tooLarge))

end Idf

namespace Grid

/-- The grid in a file, its cells still on disk. -/
def read (files : FileTree) (path : Path) : Traced (Grid K V S) := do
  let header : Idf.Header K V ← liftExcept (Idf.readHeader files path)
  let place := str path.toText
  if Number.isNaN header.nodata then
    Traced.record .warning s!"NoData value of {place} is NaN, this may give unexpected results"
  if header.cols == 0 || header.rows == 0 then
    Traced.record .warning s!"Grid {place} is empty"
  let extent ← liftExcept (Extent.of header.xmin header.ymin header.xmax header.ymax)
  if header.cellWidth ≤ Coordinate.zero then
    throw (.grid (.cellSize (Coordinate.shortest header.cellWidth)))
  let stem := path.stem
  return {
    extent
    cellWidth := header.cellWidth
    cellHeight := header.cellHeight
    nodata := header.nodata
    name := if stem.isEmpty then defaultName else stem
    path := some path
    top := header.top
    bottom := header.bottom
    rows := header.rows
    cols := header.cols
    cells := .onDisk path }

/-- The grid with its cells resident. -/
def load (files : FileTree) (grid : Grid K V S) : Except Fault (Grid K V S) := do
  match grid.cells with
  | .resident _ => return grid
  | .onDisk path => return { grid with cells := .resident (← Idf.readCells (K := K) files path) }

/-- The grid with its cells given up, if the file behind it is there to read them again. -/
def release? (files : FileTree) (grid : Grid K V S) : Option (Grid K V S) :=
  match grid.path with
  | some path => if files.pathExists path then some { grid with cells := .onDisk path } else none
  | none => none

/-- The files after a grid, and its metadata if any, have been written. A file that cannot be
written to its end keeps what was written before the fault. -/
def write (grid : Grid K V S) (path : Path) (metadata : Option Metadata) (files : FileTree) :
    Except Fault Unit × FileTree :=
  match files.ensureDirectories path.parent with
  | (.error fault, files) => (.error (.file fault), files)
  | (.ok (), files) =>
      match grid.values with
      | .error fault => (.error fault, files)
      | .ok cells =>
          let (bytes, outcome) := Idf.encode grid cells
          match files.write path bytes with
          | .error fault => (.error (.file fault), files)
          | .ok files =>
              match outcome, metadata with
              | .ok (), some metadata =>
                  let text := Bytes.ofText metadata.toText
                  match files.write (Metadata.pathFor path) text with
                  | .ok files => (.ok (), files)
                  | .error fault => (.error (.file fault), files)
              | outcome, _ => (outcome, files)

end Grid

namespace Operand

def load (files : FileTree) : Operand K V S → Except Fault (Operand K V S)
  | .constant c => return .constant c
  | .grid g => return .grid (← g.load files)

def isLoaded : Operand K V S → Bool
  | .constant _ => true
  | .grid g => g.isLoaded

/-- The operand with its cells given up, if they can be read again. -/
def release? (files : FileTree) : Operand K V S → Option (Operand K V S)
  | .constant _ => none
  | .grid g => (g.release? files).map .grid

end Operand

end MapAlgebra
