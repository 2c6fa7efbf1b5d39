import MapAlgebra.Proofs.Consistency
import MapAlgebra.Proofs.RoundTrip

/-!
# The extent that a file keeps

A file keeps the lower left corner of a grid, the cell size and the cells. It has the extent of a
consistent grid, and a grid that was refined to cells that do not fill its extent is read back with
another one.
-/

namespace MapAlgebra

section Reading

variable {K V S : Type} [Coordinate K] [Number V] [Cell S V]

omit [Cell S V] in
/-- A header with its sides in order and a cell width makes a grid of the extent it tells. -/
theorem Grid.succeeds_read {files : FileTree} {path : Path} {header : Idf.Header K V}
    (hheader : Idf.readHeader files path = .ok header) {extent : Extent K}
    (hextent : Extent.of header.xmin header.ymin header.xmax header.ymax = .ok extent)
    (hwidth : ¬ header.cellWidth ≤ Coordinate.zero) :
    Traced.Succeeds (fun grid => grid.extent = extent)
      (Grid.read files path : Traced (Grid K V S)) := by
  unfold Grid.read
  refine .bind (.lift hheader rfl) fun found hfound => ?_
  subst hfound
  extract_lets place stem built checked
  refine .optional fun _ => ?_
  unfold checked
  refine .optional fun _ => ?_
  unfold built
  refine .bind (.lift hextent rfl) fun box hbox => ?_
  dsimp only
  rw [if_neg hwidth]
  exact .pure hbox.symm

/-- The file of a grid that was written without metadata. -/
theorem Grid.exists_encode_of_write {grid : Grid K V S} {path : Path} {before after : FileTree}
    (h : grid.write path none before = (.ok (), after)) :
    ∃ cells bytes, grid.values = .ok cells ∧ Idf.encode grid cells = (bytes, .ok ()) ∧
      after.read path = .ok bytes := by
  unfold Grid.write at h
  generalize before.ensureDirectories path.parent = made at h
  obtain ⟨_ | _, made⟩ := made
  · cases h
  · cases hcells : grid.values with
    | error fault =>
        rw [hcells] at h
        cases h
    | ok cells =>
        rw [hcells] at h
        dsimp only at h
        rcases hencode : Idf.encode grid cells with ⟨bytes, outcome⟩
        rw [hencode] at h
        dsimp only at h
        cases hwrite : made.write path bytes with
        | error fault =>
            rw [hwrite] at h
            cases h
        | ok stored =>
            rw [hwrite] at h
            cases outcome with
            | error fault => cases h
            | ok done =>
                cases h
                exact ⟨cells, bytes, rfl, hencode, FileTree.read_of_write hwrite⟩

end Reading

variable {V S : Type} [Number V] [Cell S V]

/-- What a file keeps of an extent. -/
def Extent.stored? (extent : Extent ℚ) : Option (Extent ℚ) := do
  return ⟨← Fraction.stored? extent.xll, ← Fraction.stored? extent.yll,
    ← Fraction.stored? extent.xur, ← Fraction.stored? extent.yur⟩

namespace Idf

/-- The box that a header tells. -/
def Header.extent (header : Header ℚ V) : Extent ℚ :=
  ⟨header.xmin, header.ymin, header.xmax, header.ymax⟩

end Idf

namespace Grid

variable {grid : Grid ℚ V S}

/-- A consistent grid leaves its extent and its cell width in its file. -/
theorem Consistent.exists_readHeader [LawfulCell S] (h : grid.Consistent) {path : Path}
    {before after : FileTree} (hwrite : grid.write path none before = (.ok (), after)) :
    ∃ header : Idf.Header ℚ V, Idf.readHeader after path = .ok header ∧
      grid.extent.stored? = some header.extent ∧
      Fraction.stored? grid.cellWidth = some header.cellWidth := by
  obtain ⟨cells, bytes, hcells, hencode, hread⟩ := exists_encode_of_write hwrite
  obtain ⟨single, hrounds, -, hdecode⟩ := Idf.decode_of_encode hencode
  obtain ⟨hheader, -⟩ := hdecode path.toText
  have hfits := h.isShaped.values cells hcells
  have hstored {x : ℚ} {kept : Float32} (hkept : Coordinate.toSingle? x = some kept) :
      Fraction.stored? x = some (Coordinate.ofSingle kept) := congrArg (Option.map _) hkept
  have hxmax : (Idf.Header.ofGrid grid cells).xmax = grid.extent.xur := by
    rw [h.right, ← hfits.cols]
    rfl
  have hymax : (Idf.Header.ofGrid grid cells).ymax = grid.extent.yur := by
    rw [h.upper, ← hfits.rows]
    rfl
  have hleft : Fraction.stored? grid.extent.xll = some (Coordinate.ofSingle single.xmin) :=
    hstored hrounds.xmin
  have hlower : Fraction.stored? grid.extent.yll = some (Coordinate.ofSingle single.ymin) :=
    hstored hrounds.ymin
  refine ⟨single.widened, ?_, ?_, hstored hrounds.cellWidth⟩
  · unfold Idf.readHeader
    rw [hread]
    dsimp only
    rw [hheader]
  · unfold Extent.stored?
    rw [hleft, hlower, ← hxmax, ← hymax, hstored hrounds.xmax, hstored hrounds.ymax]
    rfl

/-- A consistent grid whose extent and cell width are in single precision is read back with its
extent. -/
theorem Consistent.succeeds_read [LawfulCell S] (h : grid.Consistent) {path : Path}
    {before after : FileTree} (hwrite : grid.write path none before = (.ok (), after))
    (hextent : grid.extent.stored? = some grid.extent)
    (hsize : Fraction.stored? grid.cellWidth = some grid.cellWidth) (hwidth : 0 < grid.cellWidth)
    (hheight : 0 < grid.cellHeight) :
    Traced.Succeeds (fun again => again.extent = grid.extent)
      (Grid.read after path : Traced (Grid ℚ V S)) := by
  obtain ⟨header, hheader, hkept, hkeptSize⟩ := h.exists_readHeader hwrite
  have hbox : header.extent = grid.extent := Option.some.inj (hkept.symm.trans hextent)
  have hcell : header.cellWidth = grid.cellWidth := Option.some.inj (hkeptSize.symm.trans hsize)
  have hmade : Extent.of header.xmin header.ymin header.xmax header.ymax = .ok header.extent := by
    have hordered := h.ordered hwidth.le hheight.le
    rw [← hbox] at hordered
    exact Extent.of_eq_ok hordered.1 hordered.2
  rw [← hbox]
  refine Grid.succeeds_read hheader hmade (not_le.mpr ?_)
  rw [hcell]
  exact hwidth

/-- What a consistent grid is made into is consistent and leaves its extent in its file. Refining is
the exception: the extent is kept, and the new cells may not fill it. -/
theorem consistent_and_read_back [LawfulCell S] [Conversion ℚ V] (hgrid : grid.Consistent) :
    (∀ result, Relation.ReflTransGen Makes grid result → result.Consistent ∧
      ∀ path before after, result.write path none before = (.ok (), after) →
        (∃ header : Idf.Header ℚ V, Idf.readHeader after path = .ok header ∧
          result.extent.stored? = some header.extent) ∧
        (result.extent.stored? = some result.extent →
          Fraction.stored? result.cellWidth = some result.cellWidth →
          0 < result.cellWidth → 0 < result.cellHeight →
            Traced.Succeeds (fun again => again.extent = result.extent)
              (Grid.read after path : Traced (Grid ℚ V S)))) ∧
      ∀ cellSize method result, 0 < cellSize → grid.refine cellSize method = .ok result →
        (result.Consistent ↔ grid.extent.HoldsWholeCells cellSize) := by
  refine ⟨fun result hrun => ?_, fun cellSize method result hpos hrefine => ?_⟩
  · have hresult := hgrid.of_run hrun
    refine ⟨hresult, fun path before after hwrite => ⟨?_, fun hextent hsize hwidth hheight => ?_⟩⟩
    · obtain ⟨header, hheader, hextent, -⟩ := hresult.exists_readHeader hwrite
      exact ⟨header, hheader, hextent⟩
    · exact hresult.succeeds_read hwrite hextent hsize hwidth hheight
  · exact (refines_refine grid cellSize method result hrefine).consistent_iff hpos

/-- A single cell of size one. -/
def unitGrid : Grid ℚ Float Float32 where
  extent := ⟨0, 0, 1, 1⟩
  cellWidth := 1
  cellHeight := 1
  nodata := -9999
  name := defaultName
  rows := 1
  cols := 1
  cells := .resident (.fill 1 1 5)

theorem consistent_unitGrid : unitGrid.Consistent :=
  ⟨⟨_, rfl, rfl, rfl⟩, by decide +kernel, by decide +kernel⟩

def unitPath : Path := .ofText "UNIT.IDF".toList

/-- The extent in the file that a grid leaves in an empty directory. -/
def readBack? (grid : Grid ℚ Float Float32) : Option (Extent ℚ) :=
  match grid.write unitPath none ⟨[], []⟩ with
  | (.ok (), after) =>
      (Idf.readHeader after unitPath : Except Fault (Idf.Header ℚ Float)).toOption.map (·.extent)
  | (.error _, _) => none

theorem exists_refine_unitGrid (cellSize : ℚ) (check : Grid ℚ Float Float32 → Bool)
    (h : (unitGrid.refine cellSize .block).toOption.any check) :
    ∃ result, unitGrid.refine cellSize .block = .ok result ∧ check result := by
  cases hrefine : unitGrid.refine cellSize .block with
  | error fault =>
      rw [hrefine] at h
      cases h
  | ok result =>
      rw [hrefine] at h
      exact ⟨result, rfl, h⟩

/-- Cells of half the size fill the extent, and the file has it. -/
theorem consistent_halved : ∃ result after,
    unitGrid.Consistent ∧ unitGrid.refine (1 / 2) .block = .ok result ∧ result.Consistent ∧
      result.write unitPath none ⟨[], []⟩ = (.ok (), after) ∧
      (∃ header : Idf.Header ℚ Float, Idf.readHeader after unitPath = .ok header ∧
        result.extent.stored? = some header.extent) ∧
      Traced.Succeeds (fun again => again.extent = result.extent)
        (Grid.read after unitPath : Traced (Grid ℚ Float Float32)) := by
  obtain ⟨result, hrefine, hcheck⟩ := exists_refine_unitGrid (1 / 2)
    (fun result => (result.write unitPath none ⟨[], []⟩).1.toBool &&
      decide (result.extent.stored? = some result.extent ∧
        Fraction.stored? result.cellWidth = some result.cellWidth ∧
        0 < result.cellWidth ∧ 0 < result.cellHeight)) (by decide +kernel)
  obtain ⟨hwritten, hexact⟩ := Bool.and_eq_true_iff.mp hcheck
  obtain ⟨hextent, hsize, hwidth, hheight⟩ := of_decide_eq_true hexact
  rcases hwrite : result.write unitPath none ⟨[], []⟩ with ⟨_ | _, after⟩
  · rw [hwrite] at hwritten
    cases hwritten
  · obtain ⟨hmade, hrefined⟩ := consistent_and_read_back consistent_unitGrid
    have hconsistent : result.Consistent :=
      (hrefined (1 / 2) .block result (by norm_num) hrefine).mpr
        ⟨2, 2, by decide, by decide, by decide +kernel, by decide +kernel⟩
    have hrun : Relation.ReflTransGen Makes unitGrid result :=
      .single (.refine (by norm_num) ⟨2, 2, by decide, by decide, by decide +kernel,
        by decide +kernel⟩ hrefine)
    obtain ⟨hheader, hread⟩ := (hmade result hrun).2 unitPath _ after hwrite
    exact ⟨result, after, consistent_unitGrid, hrefine, hconsistent, hwrite, hheader,
      hread hextent hsize hwidth hheight⟩

/-- One cell of three quarters of the size is left of the single cell. The grid keeps its extent,
and its file has that of the cell. -/
theorem refined_unevenly_unitGrid : ∃ result,
    unitGrid.Consistent ∧ unitGrid.refine (3 / 4) .block = .ok result ∧ ¬ result.Consistent ∧
      result.extent = ⟨0, 0, 1, 1⟩ ∧ readBack? result = some ⟨0, 0, 3 / 4, 3 / 4⟩ := by
  obtain ⟨result, hrefine, hcheck⟩ := exists_refine_unitGrid (3 / 4)
    (fun result => decide (result.extent = ⟨0, 0, 1, 1⟩ ∧ result.cols = 1 ∧
      result.cellWidth = 3 / 4 ∧ readBack? result = some ⟨0, 0, 3 / 4, 3 / 4⟩)) (by decide +kernel)
  obtain ⟨hextent, hcols, hwidth, hread⟩ := of_decide_eq_true hcheck
  refine ⟨result, consistent_unitGrid, hrefine, fun hconsistent => ?_, hextent, hread⟩
  have hright := hconsistent.right
  rw [hextent, hcols, hwidth] at hright
  norm_num at hright

end Grid

end MapAlgebra
