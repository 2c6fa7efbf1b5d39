import MapAlgebra.Files.Bytes
import MapAlgebra.Grid.Aggregate
import MapAlgebra.Grid.Basic

/-!
# Headers of IDF files

A grid file in single precision begins with a header of 44 bytes, two cell sizes and, if a flag
says so, two levels. All numbers are words of 32 bits with the lowest byte first:

* the record marker 1271, the number of columns, the number of rows;
* the sides of the extent: left, right, lower, upper;
* the least and the greatest cell value, the NoData value;
* four flag bytes, of which the first tells of cells of different size and the second of levels;
* the cell width and the cell height;
* the top and bottom levels, if there are any.

The cells follow row by row, the top row first.
-/

namespace MapAlgebra.Idf

structure Header (K V : Type) where
  cols : Int
  rows : Int
  xmin : K
  xmax : K
  ymin : K
  ymax : K
  least : V
  greatest : V
  nodata : V
  cellWidth : K
  cellHeight : K
  top : Option V := none
  bottom : Option V := none

def marker : Int := 1271

def doubleMarker : Int := 2295

/-- The bytes before the cell sizes. -/
def headLength : Nat := 44

namespace Header

variable {K V S : Type} [Coordinate K] [Number V] [Cell S V]

/-- The bytes before the cells. -/
def length (header : Header K V) : Nat :=
  headLength + 8 + if header.top.isSome then 8 else 0

/-- The word with a number. -/
def word (bytes : List UInt8) (index : Nat) : UInt32 :=
  ((Bytes.toWords ((bytes.drop (4 * index)).take 4)).head?).getD 0

/-- The single precision number that the word with a number stands for. -/
def single (bytes : List UInt8) (index : Nat) : Float32 :=
  Float32.ofBits (word bytes index)

/-- The header at the beginning of the bytes of a file. The path is for the messages. -/
def decode (path : Text) (bytes : List UInt8) : Except FormatFault (Header K V) :=
  let found := Bytes.toInt (word bytes 0)
  let coordinate (index : Nat) : K := Coordinate.ofSingle (single bytes index)
  let number (index : Nat) : V := Number.ofSingle (single bytes index)
  let levels := bytes[41]? != some 0
  if bytes.length < headLength then .error (.short path)
  else if found == doubleMarker then .error (.doublePrecision path)
  else if found != marker then .error (.marker found path)
  else if bytes[40]? != some 0 then .error (.notEquidistant path)
  else if bytes.length < headLength + if levels then 16 else 8 then .error .truncated
  else
    .ok {
      cols := Bytes.toInt (word bytes 1)
      rows := Bytes.toInt (word bytes 2)
      xmin := coordinate 3
      xmax := coordinate 4
      ymin := coordinate 5
      ymax := coordinate 6
      least := number 7
      greatest := number 8
      nodata := number 9
      cellWidth := coordinate 11
      cellHeight := coordinate 12
      top := if levels then some (number 13) else none
      bottom := if levels then some (number 14) else none }

/-- The words of numbers; none when one of them is beyond single precision. -/
def pack (numbers : List (Option Float32)) : Option (List UInt8) :=
  (numbers.mapM id).map fun singles => singles.flatMap fun x => Bytes.ofWord x.toBits

/-- Whether the numbers of columns and rows have a word. -/
def countsFit (header : Header K V) : Bool :=
  [header.cols, header.rows].all fun n =>
    Int32.minValue.toInt ≤ n && n ≤ Int32.maxValue.toInt

/-- The parts of the header in the order in which they are written. A part that holds a number
beyond single precision is missing. -/
def parts (header : Header K V) : List (Option (List UInt8)) :=
  let coordinate : K → Option Float32 := Coordinate.toSingle?
  let number : V → Option Float32 := Number.toSingle?
  let flags : List UInt8 := [0, if header.top.isSome then 1 else 0, 0, 0]
  let counts := [marker, header.cols, header.rows].flatMap fun n => Bytes.ofWord (Bytes.ofInt n)
  let numbers := pack [
    coordinate header.xmin, coordinate header.xmax, coordinate header.ymin,
    coordinate header.ymax, number header.least, number header.greatest, number header.nodata]
  let head := numbers.map fun bytes => counts ++ bytes ++ flags
  let sizes := pack [coordinate header.cellWidth, coordinate header.cellHeight]
  match header.top, header.bottom with
  | some top, some bottom => [head, sizes, pack [number top, number bottom]]
  | _, _ => [head, sizes]

/-- The cells with data. -/
private def valid (nodata : V) (cells : Raster S) : List V :=
  (cells.toList.filter fun cell => !Grid.holdsNodata nodata cell).map Cell.widen

/-- The header of a grid with the given cells. The upper sides follow from the number of cells and
levels are kept only as a pair. -/
def ofGrid (grid : Grid K V S) (cells : Raster S) : Header K V :=
  let values := valid grid.nodata cells
  let paired := grid.top.isSome && grid.bottom.isSome
  { cols := cells.cols
    rows := cells.rows
    xmin := grid.extent.xll
    xmax := grid.extent.xll + Coordinate.ofInt cells.cols * grid.cellWidth
    ymin := grid.extent.yll
    ymax := grid.extent.yll + Coordinate.ofInt cells.rows * grid.cellHeight
    least := if values.isEmpty then grid.nodata else Aggregate.least values
    greatest := if values.isEmpty then grid.nodata else Aggregate.largest values
    nodata := grid.nodata
    cellWidth := grid.cellWidth
    cellHeight := grid.cellHeight
    top := if paired then grid.top else none
    bottom := if paired then grid.bottom else none }

end Header

end MapAlgebra.Idf
