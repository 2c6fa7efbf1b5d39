import MapAlgebra.Proofs.Files
import MapAlgebra.Proofs.GridFile
import MapAlgebra.Proofs.Widening

/-!
# Reading back what was written

A grid file gives back the cells of the grid bit by bit and its header in single precision. The
cells without data are the same before and after, since the NoData value is compared in single
precision anyway.
-/

namespace MapAlgebra

namespace Double

/-- The nearest single precision number. -/
def nearest (x : Float) : Float := ofSingle (toSingle x)

theorem nearest_of_toSingle? {x : Float} {single : Float32} (h : toSingle? x = some single) :
    ofSingle single = nearest x := by
  unfold toSingle? at h
  dsimp only at h
  split at h
  next => cases h
  next =>
    cases h
    rfl

theorem toSingle_nearest (x : Float) : toSingle (nearest x) = toSingle x :=
  toSingle_ofSingle _

theorem isNaN_nearest (x : Float) : (nearest x).isNaN = x.isNaN :=
  isNaN_ofSingle_toSingle x

theorem map_nearest_of_toSingle? {x : Option Float} {single : Option Float32}
    (h : x.map toSingle? = single.map some) : single.map ofSingle = x.map nearest := by
  cases x with
  | none =>
      cases single with
      | none => rfl
      | some single => cases h
  | some x =>
      cases single with
      | none => cases h
      | some single => exact congrArg some (nearest_of_toSingle? (Option.some.inj h))

end Double

/-- Cells without data are told by the NoData value in single precision. -/
theorem Grid.holdsNodata_nearest (nodata : Float) (cell : Float32) :
    holdsNodata (Double.nearest nodata) cell = holdsNodata nodata cell := by
  have hnan : Number.isNaN (Double.nearest nodata) = Number.isNaN nodata :=
    Double.isNaN_nearest nodata
  have hnarrow : (Cell.narrow (Double.nearest nodata) : Float32) = Cell.narrow nodata :=
    Double.toSingle_nearest nodata
  unfold holdsNodata
  rw [hnan, hnarrow]

theorem FileTree.read_of_write {before after : FileTree} {path : Path} {bytes : List UInt8}
    (h : before.write path bytes = .ok after) : after.read path = .ok bytes := by
  obtain ⟨place, hplace, hdirectories, hnode⟩ := write_eq_ok h
  refine read_eq_ok_iff.mpr ⟨place, hdirectories.place_eq_ok hplace, ?_⟩
  rw [hnode, if_pos rfl]

namespace Idf

/-- What a grid was written as is read with the same cells, and with a header in single precision
that tells the same cells to be without data. -/
theorem readHeader_of_encode {grid : Grid Float Float Float32} {cells : Raster Float32}
    {bytes : List UInt8} {path : Path} {before after : FileTree}
    (hencode : encode grid cells = (bytes, .ok ())) (hwrite : before.write path bytes = .ok after) :
    ∃ header : Header Float Float, readHeader after path = .ok header ∧
      header.cols = cells.cols ∧ header.rows = cells.rows ∧
      header.xmin = Double.nearest grid.extent.xll ∧
      header.xmax = Double.nearest (grid.extent.xll + Float.ofInt cells.cols * grid.cellWidth) ∧
      header.ymin = Double.nearest grid.extent.yll ∧
      header.ymax = Double.nearest (grid.extent.yll + Float.ofInt cells.rows * grid.cellHeight) ∧
      header.nodata = Double.nearest grid.nodata ∧
      header.cellWidth = Double.nearest grid.cellWidth ∧
      header.cellHeight = Double.nearest grid.cellHeight ∧
      (match grid.top, grid.bottom with
        | some top, some bottom =>
            header.top = some (Double.nearest top) ∧ header.bottom = some (Double.nearest bottom)
        | _, _ => header.top = none ∧ header.bottom = none) ∧
      after.read path = .ok bytes ∧
      Bytes.toWords (bytes.drop header.length) = cells.toList.map Float32.toBits ∧
      readCells (K := Float) after path = .ok cells ∧
      cells.map (Grid.holdsNodata header.nodata) = cells.map (Grid.holdsNodata grid.nodata) := by
  have hread := FileTree.read_of_write hwrite
  obtain ⟨single, hrounds, hdrop, hdecode⟩ := decode_of_encode hencode
  obtain ⟨hheader, -⟩ := hdecode path.toText
  have hnodata : Double.ofSingle single.nodata = Double.nearest grid.nodata :=
    Double.nearest_of_toSingle? hrounds.nodata
  refine ⟨single.widened, ?_, hrounds.cols, hrounds.rows, Double.nearest_of_toSingle? hrounds.xmin,
    Double.nearest_of_toSingle? hrounds.xmax, Double.nearest_of_toSingle? hrounds.ymin,
    Double.nearest_of_toSingle? hrounds.ymax, hnodata,
    Double.nearest_of_toSingle? hrounds.cellWidth, Double.nearest_of_toSingle? hrounds.cellHeight,
    ?_, hread, ?_, holds_of_encode hencode after path hread, ?_⟩
  · unfold readHeader
    rw [hread]
    dsimp only
    rw [hheader]
  · have htop : single.top.map Double.ofSingle =
        (Header.ofGrid grid cells).top.map Double.nearest :=
      Double.map_nearest_of_toSingle? hrounds.top
    have hbottom : single.bottom.map Double.ofSingle =
        (Header.ofGrid grid cells).bottom.map Double.nearest :=
      Double.map_nearest_of_toSingle? hrounds.bottom
    unfold Header.ofGrid at htop hbottom
    -- levels are kept only as a pair
    cases htops : grid.top <;> cases hbottoms : grid.bottom <;>
      rw [htops, hbottoms] at htop hbottom <;> exact ⟨htop, hbottom⟩
  · rw [Header.length_widened, hdrop, ← Bytes.toWords_flatMap_ofWord (cells.toList.map _),
      List.flatMap_map]
    rfl
  · show cells.map (Grid.holdsNodata (Double.ofSingle single.nodata)) = _
    rw [hnodata]
    exact congrArg cells.map (funext fun cell => Grid.holdsNodata_nearest grid.nodata cell)

/-- Two cells between two levels, the second one without data, of a width that single precision
rounds. -/
def layer : Grid Float Float Float32 where
  extent := ⟨0, 0, 0.2, 0.1⟩
  cellWidth := 0.1
  cellHeight := 0.1
  nodata := -9999
  name := Grid.defaultName
  top := some 1
  bottom := some 0
  rows := 1
  cols := 2
  cells := .onDisk ⟨[], []⟩

def layerCells : Raster Float32 := .ofFn 1 2 fun _ j => if j.val = 0 then 5 else -9999

theorem readHeader_layer :
    ∃ bytes after, encode layer layerCells = (bytes, .ok ()) ∧
      (⟨[], []⟩ : FileTree).write (.ofText "LAYER.IDF".toList) bytes = .ok after ∧
      ∃ header : Header Float Float, readHeader after (.ofText "LAYER.IDF".toList) = .ok header ∧
        header.cols = 2 ∧ header.cellWidth = Double.nearest 0.1 ∧
        header.top = some (Double.nearest 1) ∧ header.bottom = some (Double.nearest 0) ∧
        readCells (K := Float) after (.ofText "LAYER.IDF".toList) = .ok layerCells := by
  have hsucceeds : (encode layer layerCells).2.toBool := by decide +kernel
  have hencode : encode layer layerCells = ((encode layer layerCells).1, .ok ()) := by
    cases h : (encode layer layerCells).2 with
    | error fault =>
        rw [h] at hsucceeds
        cases hsucceeds
    | ok done => rw [← h]
  obtain ⟨after, hwrite⟩ : ∃ after, (⟨[], []⟩ : FileTree).write (.ofText "LAYER.IDF".toList)
      (encode layer layerCells).1 = .ok after := ⟨_, rfl⟩
  obtain ⟨header, hread, hcols, -, -, -, -, -, -, hwidth, -, ⟨htop, hbottom⟩, -, -, hcells, -⟩ :=
    readHeader_of_encode hencode hwrite
  exact ⟨_, after, hencode, hwrite, header, hread, hcols, hwidth, htop, hbottom, hcells⟩

end Idf

end MapAlgebra
