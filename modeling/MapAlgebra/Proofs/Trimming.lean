import MapAlgebra.Proofs.Enlarging

/-!
# Grids without their margins

A raster is framed by the first and the last of its rows and columns that have a cell with data.
What is left of a grid in this frame, at its place, is its bounding box. The frame of the box goes
along its sides, so that nothing is left to trim.
-/

namespace MapAlgebra

variable {K V S α β : Type}

/-- The ends of numbers in order are the least and the greatest of them. -/
theorem exists_ends {numbers : List ℕ} (hsorted : numbers.Pairwise (· < ·))
    (hsome : numbers ≠ []) : ∃ first last,
      numbers.head? = some first ∧ numbers.getLast? = some last ∧
      first ∈ numbers ∧ last ∈ numbers ∧ ∀ n ∈ numbers, first ≤ n ∧ n ≤ last := by
  refine ⟨numbers.head hsome, numbers.getLast hsome, List.head?_eq_some_head hsome,
    List.getLast?_eq_some_getLast hsome, List.head_mem hsome, List.getLast_mem hsome,
    fun n hn => ⟨?_, ?_⟩⟩
  · rw [← List.cons_head_tail hsome, List.pairwise_cons] at hsorted
    rw [← List.cons_head_tail hsome, List.mem_cons] at hn
    exact hn.elim (fun h => h.ge) fun htail => (hsorted.1 n htail).le
  · rw [← List.dropLast_append_getLast hsome, List.pairwise_append] at hsorted
    rw [← List.dropLast_append_getLast hsome, List.mem_append, List.mem_singleton] at hn
    exact hn.elim (fun hinit => (hsorted.2.2 n hinit _ List.mem_cons_self).le) fun h => h.le

/-- The numbers below a bound that pass a test are found in order. -/
theorem pairwise_lt_found {n : ℕ} (test : Fin n → Bool) :
    ((List.finRange n).filterMap fun k =>
      if test k then some k.val else none).Pairwise (· < ·) := by
  refine List.Pairwise.filterMap _ (fun a b hlt i hi j hj => ?_) (List.pairwise_lt_finRange n)
  cases (Option.ite_none_right_eq_some.mp hi).2
  cases (Option.ite_none_right_eq_some.mp hj).2
  exact hlt

namespace Raster

/-- The raster has a cell at a row and a column that passes a test. -/
def Marks (raster : Raster α) (test : α → Bool) (i j : ℕ) : Prop :=
  ∃ a, raster.get? i j = some a ∧ test a

/-- The frame of the cells that pass a test: no row or column outside of it has such a cell, and
each of its sides has one. -/
structure Frames (raster : Raster α) (test : α → Bool) (top bottom left right : ℕ) : Prop where
  within : ∀ i j, raster.Marks test i j → (top ≤ i ∧ i ≤ bottom) ∧ left ≤ j ∧ j ≤ right
  onTop : ∃ j, raster.Marks test top j
  onBottom : ∃ j, raster.Marks test bottom j
  onLeft : ∃ i, raster.Marks test i left
  onRight : ∃ i, raster.Marks test i right

variable {raster : Raster α} {test : α → Bool} {i j top bottom left right : ℕ}

theorem Marks.lt (h : raster.Marks test i j) : i < raster.rows ∧ j < raster.cols :=
  have ⟨_, hget, _⟩ := h
  lt_of_get?_eq_some hget

theorem marks_fin_iff (row : Fin raster.rows) (col : Fin raster.cols) :
    raster.Marks test row col ↔ test (raster.get row col) := by
  unfold Marks
  rw [raster.get?_eq_get row.isLt col.isLt]
  simp

theorem mem_rowsWith_iff : i ∈ raster.rowsWith test ↔ ∃ j, raster.Marks test i j := by
  unfold rowsWith
  simp only [List.mem_filterMap, List.mem_finRange, true_and, Option.ite_none_right_eq_some,
    List.any_eq_true, Option.some.injEq, ← marks_fin_iff]
  constructor
  · rintro ⟨row, ⟨col, hmarks⟩, rfl⟩
    exact ⟨col, hmarks⟩
  · rintro ⟨j, hmarks⟩
    exact ⟨⟨i, hmarks.lt.1⟩, ⟨⟨j, hmarks.lt.2⟩, hmarks⟩, rfl⟩

theorem mem_colsWith_iff : j ∈ raster.colsWith test ↔ ∃ i, raster.Marks test i j := by
  unfold colsWith
  simp only [List.mem_filterMap, List.mem_finRange, true_and, Option.ite_none_right_eq_some,
    List.any_eq_true, Option.some.injEq, ← marks_fin_iff]
  constructor
  · rintro ⟨col, ⟨row, hmarks⟩, rfl⟩
    exact ⟨row, hmarks⟩
  · rintro ⟨i, hmarks⟩
    exact ⟨⟨j, hmarks.lt.2⟩, ⟨⟨i, hmarks.lt.1⟩, hmarks⟩, rfl⟩

theorem rowsWith_map (f : α → β) (test : β → Bool) (raster : Raster α) :
    (raster.map f).rowsWith test = raster.rowsWith (test ∘ f) := by
  simp [rowsWith, map]

theorem colsWith_map (f : α → β) (test : β → Bool) (raster : Raster α) :
    (raster.map f).colsWith test = raster.colsWith (test ∘ f) := by
  simp [colsWith, map]

/-- The ends of the rows and columns with a marked cell frame the marked cells. -/
theorem Marks.exists_frames (h : raster.Marks test i j) : ∃ top bottom left right,
    (raster.rowsWith test).head? = some top ∧ (raster.rowsWith test).getLast? = some bottom ∧
      (raster.colsWith test).head? = some left ∧ (raster.colsWith test).getLast? = some right ∧
      raster.Frames test top bottom left right := by
  obtain ⟨top, bottom, htop, hbottom, hmemTop, hmemBottom, hrows⟩ :=
    exists_ends (pairwise_lt_found _) (List.ne_nil_of_mem (mem_rowsWith_iff.mpr ⟨j, h⟩))
  obtain ⟨left, right, hleft, hright, hmemLeft, hmemRight, hcols⟩ :=
    exists_ends (pairwise_lt_found _) (List.ne_nil_of_mem (mem_colsWith_iff.mpr ⟨i, h⟩))
  exact ⟨top, bottom, left, right, htop, hbottom, hleft, hright,
    fun r c hmarks => ⟨hrows r (mem_rowsWith_iff.mpr ⟨c, hmarks⟩),
      hcols c (mem_colsWith_iff.mpr ⟨r, hmarks⟩)⟩,
    mem_rowsWith_iff.mp hmemTop, mem_rowsWith_iff.mp hmemBottom, mem_colsWith_iff.mp hmemLeft,
    mem_colsWith_iff.mp hmemRight⟩

namespace Frames

theorem ordered (h : raster.Frames test top bottom left right) : top ≤ bottom ∧ left ≤ right := by
  obtain ⟨j, hj⟩ := h.onTop
  obtain ⟨hrow, hcol⟩ := h.within top j hj
  exact ⟨hrow.2, hcol.1.trans hcol.2⟩

theorem lt (h : raster.Frames test top bottom left right) :
    bottom < raster.rows ∧ right < raster.cols := by
  obtain ⟨j, hj⟩ := h.onBottom
  obtain ⟨i, hi⟩ := h.onRight
  exact ⟨hj.lt.1, hi.lt.2⟩

/-- There is one frame. -/
theorem unique {top' bottom' left' right' : ℕ} (h : raster.Frames test top bottom left right)
    (h' : raster.Frames test top' bottom' left' right') :
    top' = top ∧ bottom' = bottom ∧ left' = left ∧ right' = right := by
  have hhalf {top bottom left right top' bottom' left' right' : ℕ}
      (h : raster.Frames test top bottom left right)
      (h' : raster.Frames test top' bottom' left' right') :
      top ≤ top' ∧ bottom' ≤ bottom ∧ left ≤ left' ∧ right' ≤ right := by
    obtain ⟨_, htop⟩ := h'.onTop
    obtain ⟨_, hbottom⟩ := h'.onBottom
    obtain ⟨_, hleft⟩ := h'.onLeft
    obtain ⟨_, hright⟩ := h'.onRight
    exact ⟨(h.within _ _ htop).1.1, (h.within _ _ hbottom).1.2, (h.within _ _ hleft).2.1,
      (h.within _ _ hright).2.2⟩
  have hinner := hhalf h h'
  have houter := hhalf h' h
  omega

/-- What a frame holds is framed by its own sides. -/
theorem window (h : raster.Frames test top bottom left right) :
    (raster.window top (bottom + 1) left (right + 1)).Frames test 0 (bottom - top) 0
      (right - left) := by
  obtain ⟨hbottom, hright⟩ := h.lt
  have hmarks {i j : ℕ} (hi : top ≤ i ∧ i ≤ bottom) (hj : left ≤ j ∧ j ≤ right) :
      (raster.window top (bottom + 1) left (right + 1)).Marks test (i - top) (j - left) ↔
        raster.Marks test i j := by
    unfold Marks
    rw [get?_window hbottom hright (by omega) (by omega), Nat.add_sub_cancel' hi.1,
      Nat.add_sub_cancel' hj.1]
  obtain ⟨jTop, hjTop⟩ := h.onTop
  obtain ⟨jBottom, hjBottom⟩ := h.onBottom
  obtain ⟨iLeft, hiLeft⟩ := h.onLeft
  obtain ⟨iRight, hiRight⟩ := h.onRight
  have hmarked {i j : ℕ} (hij : raster.Marks test i j) :
      (raster.window top (bottom + 1) left (right + 1)).Marks test (i - top) (j - left) :=
    have ⟨hi, hj⟩ := h.within i j hij
    (hmarks hi hj).mpr hij
  refine ⟨fun i j hij => ?_, ⟨_, Nat.sub_self top ▸ hmarked hjTop⟩, ⟨_, hmarked hjBottom⟩,
    ⟨_, Nat.sub_self left ▸ hmarked hiLeft⟩, ⟨_, hmarked hiRight⟩⟩
  have hlt := hij.lt
  simp only [Raster.window, rows_ofFn, cols_ofFn] at hlt
  omega

end Frames

/-- A raster is its own largest window. -/
theorem window_self (raster : Raster α) :
    raster.window 0 raster.rows 0 raster.cols = raster := by
  refine eq_of_get? ?_ ?_ fun i j hi hj => ?_
  · simp [window]
  · simp [window]
  · simp only [window, rows_ofFn, cols_ofFn, Nat.min_self, Nat.sub_zero] at hi hj
    rw [get?_window le_rfl le_rfl (by omega) (by omega), Nat.zero_add, Nat.zero_add]

end Raster

namespace Grid

variable [Number V] [Cell S V]

/-- Whether a cell holds data. -/
def holdsData (nodata : V) (cell : S) : Bool :=
  !holdsNodata nodata cell

/-- A grid without the rows and columns outside of a frame. -/
def trimmed (grid : Grid ℚ V S) (cells : Raster S) (top bottom left right : ℕ) : Grid ℚ V S :=
  { grid.derive (cells.window top (bottom + 1) left (right + 1)) with
    extent :=
      ⟨grid.extent.xll + left * grid.cellWidth, grid.extent.yur - (bottom + 1) * grid.cellHeight,
        grid.extent.xll + (right + 1) * grid.cellWidth, grid.extent.yur - top * grid.cellHeight⟩ }

variable {grid : Grid ℚ V S} {cells : Raster S} {top bottom left right : ℕ}

/-- A grid with data is cut to the extent of its frame. -/
theorem boundingBox_eq_clip (hcells : grid.cells = .resident cells) (hwidth : 0 ≤ grid.cellWidth)
    (hheight : 0 ≤ grid.cellHeight)
    (h : cells.Frames (holdsData grid.nodata) top bottom left right) :
    grid.boundingBox = grid.clip (grid.trimmed cells top bottom left right).extent := by
  obtain ⟨j, hmarks⟩ := h.onTop
  obtain ⟨top', bottom', left', right', htop, hbottom, hleft, hright, hframes⟩ :=
    hmarks.exists_frames
  obtain ⟨rfl, rfl, rfl, rfl⟩ := hframes.unique h
  obtain ⟨hrows, hcols⟩ := h.ordered
  have hboxed : Extent.of (grid.extent.xll + Coordinate.ofInt left * grid.cellWidth)
      (grid.extent.yur - Coordinate.ofInt (bottom + 1) * grid.cellHeight)
      (grid.extent.xll + Coordinate.ofInt (right + 1) * grid.cellWidth)
      (grid.extent.yur - Coordinate.ofInt top * grid.cellHeight) =
        .ok (grid.trimmed cells top bottom left right).extent := by
    have hspan {m n : ℤ} {size : ℚ} (hsize : 0 ≤ size) (hmn : m ≤ n) : m * size ≤ n * size :=
      mul_le_mul_of_nonneg_right (by exact_mod_cast hmn) hsize
    refine (Extent.of_eq_ok (add_le_add_right (hspan hwidth (by omega)) _)
      (sub_le_sub_left (hspan hheight (by omega)) _)).trans ?_
    simp only [trimmed, Int.cast_add, Int.cast_natCast, Int.cast_one]
  have hdata : holdsData grid.nodata = not ∘ holdsNodata (S := S) grid.nodata := rfl
  rw [hdata] at htop hbottom hleft hright
  unfold boundingBox nodataMask
  rw [values_eq_ok_iff.mpr hcells]
  simp only [bind, Except.bind, pure, Except.pure, Raster.rowsWith_map, Raster.colsWith_map, htop,
    hbottom, hleft, hright, hboxed]

/-- The bounding box of a grid with data is what its frame holds. -/
theorem Consistent.boundingBox_eq (h : grid.Consistent) (hcells : grid.cells = .resident cells)
    (hwidth : 0 < grid.cellWidth) (hheight : 0 < grid.cellHeight)
    (hframes : cells.Frames (holdsData grid.nodata) top bottom left right) :
    grid.boundingBox = .ok (some (grid.trimmed cells top bottom left right)) := by
  obtain ⟨hrows, hcols⟩ := h.isShaped.values cells (values_eq_ok_iff.mpr hcells)
  obtain ⟨hdown, hacross⟩ := hframes.ordered
  obtain ⟨hbottom, hright⟩ := hframes.lt
  rw [boundingBox_eq_clip hcells hwidth.le hheight.le hframes]
  have hleft : (grid.trimmed cells top bottom left right).extent.xll - grid.extent.xll =
      left * grid.cellWidth := add_sub_cancel_left _ _
  have htop : grid.extent.yur - (grid.trimmed cells top bottom left right).extent.yur =
      top * grid.cellHeight := sub_sub_cancel _ _
  have hright' : (grid.trimmed cells top bottom left right).extent.xur - grid.extent.xll =
      (right + 1 : ℕ) * grid.cellWidth := by
    push_cast
    exact add_sub_cancel_left _ _
  have hbottom' : grid.extent.yur - (grid.trimmed cells top bottom left right).extent.yll =
      (bottom + 1 : ℕ) * grid.cellHeight := by
    push_cast
    exact sub_sub_cancel _ _
  have hclip := clip_eq_window hcells hwidth hheight hleft hright' htop hbottom' (by omega)
    (by omega) (by omega) (by omega)
  rw [Int.toNat_natCast, Int.toNat_natCast] at hclip
  exact hclip

/-- What a frame holds is not trimmed by its own frame. -/
theorem trimmed_trimmed (hframes : cells.Frames (holdsData grid.nodata) top bottom left right) :
    (grid.trimmed cells top bottom left right).trimmed
      (cells.window top (bottom + 1) left (right + 1)) 0 (bottom - top) 0 (right - left) =
        grid.trimmed cells top bottom left right := by
  obtain ⟨hdown, hacross⟩ := hframes.ordered
  obtain ⟨hbottom, hright⟩ := hframes.lt
  let held := cells.window top (bottom + 1) left (right + 1)
  have hheld : held.window 0 (bottom - top + 1) 0 (right - left + 1) = held := by
    have hrows : bottom - top + 1 = held.rows := by
      simp only [held, Raster.window, Raster.rows_ofFn]
      omega
    have hcols : right - left + 1 = held.cols := by
      simp only [held, Raster.window, Raster.cols_ofFn]
      omega
    rw [hrows, hcols, Raster.window_self]
  unfold trimmed derive
  rw [hheld]
  simp only [held, Nat.cast_sub hdown, Nat.cast_sub hacross, Nat.cast_zero, Grid.mk.injEq,
    Extent.mk.injEq, and_true]
  refine ⟨?_, ?_, ?_, ?_⟩ <;> ring

/-- A grid without data stays whole. -/
theorem exists_boundingBox_of_no_data (hcells : grid.cells = .resident cells)
    (hfits : grid.Fits cells) (hnone : ¬ ∃ i j, cells.Marks (holdsData grid.nodata) i j) :
    ∃ whole, grid.boundingBox = .ok (some whole) ∧ grid.Matches whole ∧
      whole.nodata = grid.nodata ∧ whole.cells = grid.cells := by
  have hrows : cells.rowsWith (not ∘ holdsNodata grid.nodata) = [] :=
    List.eq_nil_iff_forall_not_mem.mpr fun i hi => hnone ⟨i, Raster.mem_rowsWith_iff.mp hi⟩
  refine ⟨{ grid.derive cells with substitute := grid.substitute }, ?_,
    ⟨⟨cells, rfl, rfl, rfl⟩, hfits.rows, hfits.cols, rfl, rfl, rfl⟩, rfl, hcells.symm⟩
  unfold boundingBox nodataMask copy
  rw [values_eq_ok_iff.mpr hcells]
  simp only [bind, Except.bind, pure, Except.pure, Raster.rowsWith_map, hrows]
  rfl

/-- The bounding box of a grid with data is the part of it from the first to the last row and column
with a cell with data, at its place, and is its own bounding box. A grid without data stays as it
is. -/
theorem Consistent.exists_box (h : grid.Consistent) (hcells : grid.cells = .resident cells)
    (hwidth : 0 < grid.cellWidth) (hheight : 0 < grid.cellHeight) :
    ((∃ i j, cells.Marks (holdsData grid.nodata) i j) → ∃ top bottom left right box out,
      cells.Frames (holdsData grid.nodata) top bottom left right ∧
        grid.boundingBox = .ok (some box) ∧ box.Consistent ∧
        box.extent = ⟨grid.extent.xll + left * grid.cellWidth,
          grid.extent.yur - (bottom + 1) * grid.cellHeight,
          grid.extent.xll + (right + 1) * grid.cellWidth,
          grid.extent.yur - top * grid.cellHeight⟩ ∧
        box.cellWidth = grid.cellWidth ∧ box.cellHeight = grid.cellHeight ∧
        box.nodata = grid.nodata ∧ box.cells = .resident out ∧
        out.rows = bottom - top + 1 ∧ out.cols = right - left + 1 ∧
        (∀ i j, i ≤ bottom - top → j ≤ right - left →
          out.get? i j = cells.get? (top + i) (left + j)) ∧
        out.Frames (holdsData grid.nodata) 0 (bottom - top) 0 (right - left) ∧
        box.boundingBox = .ok (some box)) ∧
      ((¬ ∃ i j, cells.Marks (holdsData grid.nodata) i j) →
        ∃ whole, grid.boundingBox = .ok (some whole) ∧ grid.Matches whole ∧
          whole.nodata = grid.nodata ∧ whole.cells = grid.cells) := by
  have hfits := h.isShaped.values cells (values_eq_ok_iff.mpr hcells)
  refine ⟨fun ⟨i, j, hmarks⟩ => ?_, exists_boundingBox_of_no_data hcells hfits⟩
  obtain ⟨top, bottom, left, right, -, -, -, -, hframes⟩ := hmarks.exists_frames
  have hbox := h.boundingBox_eq hcells hwidth hheight hframes
  have hmade := consistent_boundingBox h _ hbox _ rfl
  have hagain := hmade.boundingBox_eq rfl hwidth hheight hframes.window
  rw [trimmed_trimmed hframes] at hagain
  obtain ⟨hdown, hacross⟩ := hframes.ordered
  obtain ⟨hbottom, hright⟩ := hframes.lt
  refine ⟨top, bottom, left, right, _, _, hframes, hbox, hmade, rfl, rfl, rfl, rfl, rfl, ?_, ?_,
    fun i j hi hj => ?_, hframes.window, hagain⟩
  · simp only [Raster.window, Raster.rows_ofFn]
    omega
  · simp only [Raster.window, Raster.cols_ofFn]
    omega
  · exact Raster.get?_window hbottom hright (by omega) (by omega)

/-- Two cells beside each other, of which only the right one passes a test. -/
theorem frames_beside {test : S → Bool} {a b : S} (ha : test a = false) (hb : test b) :
    (Raster.ofFn 1 2 fun _ j => if j.val = 0 then a else b).Frames test 0 0 1 1 := by
  have hright : (Raster.ofFn 1 2 fun _ j => if j.val = 0 then a else b).Marks test 0 1 :=
    ⟨b, Raster.get?_ofFn _ 0 1, hb⟩
  refine ⟨fun i j hmarks => ?_, ⟨1, hright⟩, ⟨1, hright⟩, ⟨0, hright⟩, ⟨0, hright⟩⟩
  obtain ⟨hi, hj⟩ : i < 1 ∧ j < 2 := hmarks.lt
  obtain ⟨cell, hget, hcell⟩ := hmarks
  cases hget.symm.trans (Raster.get?_ofFn _ ⟨i, hi⟩ ⟨j, hj⟩)
  by_cases hleft : j = 0
  · rw [if_pos hleft, ha] at hcell
    cases hcell
  · omega

/-- Two cells, of which the right one holds data, are trimmed to that one. Two cells without data
stay. -/
theorem exists_box_pair :
    ((pair 0 1 (-9999) 7).Consistent ∧ 0 < (pair 0 1 (-9999) 7).cellWidth ∧
      0 < (pair 0 1 (-9999) 7).cellHeight ∧
      ∃ box, (pair 0 1 (-9999) 7).boundingBox = .ok (some box) ∧ box.extent = ⟨1, 0, 2, 1⟩ ∧
        box.boundingBox = .ok (some box)) ∧
      (pair 0 1 (-9999) (-9999)).Consistent ∧ 0 < (pair 0 1 (-9999) (-9999)).cellWidth ∧
      0 < (pair 0 1 (-9999) (-9999)).cellHeight ∧
      ∃ whole, (pair 0 1 (-9999) (-9999)).boundingBox = .ok (some whole) ∧
        whole.extent = ⟨0, 0, 2, 1⟩ := by
  have hdata : holdsData (-9999 : Float) (7 : Float32) = true := by decide +kernel
  have hnone : holdsData (-9999 : Float) (-9999 : Float32) = false := by decide +kernel
  have hpos (b : Float32) :
      0 < (pair 0 1 (-9999) b).cellWidth ∧ 0 < (pair 0 1 (-9999) b).cellHeight := by
    constructor <;> norm_num [pair]
  have hconsistent (b : Float32) := consistent_pair 0 1 (-9999) b
  refine ⟨⟨hconsistent 7, (hpos 7).1, (hpos 7).2, ?_⟩, hconsistent _, (hpos _).1, (hpos _).2, ?_⟩
  · have hright := frames_beside hnone hdata
    obtain ⟨j, hmarks⟩ := hright.onTop
    obtain ⟨top, bottom, left, right, box, -, hframes, hbox, -, hextent, -, -, -, -, -, -, -, -,
      hagain⟩ := ((hconsistent 7).exists_box rfl (hpos 7).1 (hpos 7).2).1 ⟨0, j, hmarks⟩
    obtain ⟨rfl, rfl, rfl, rfl⟩ := hright.unique hframes
    exact ⟨box, hbox, hextent.trans (by norm_num [pair]), hagain⟩
  · have hempty : ¬ ∃ i j, (Raster.ofFn 1 2 fun _ j => if j.val = 0 then (-9999 : Float32)
        else -9999).Marks (holdsData (-9999 : Float)) i j := by
      rintro ⟨i, j, cell, hget, hcell⟩
      obtain ⟨hi, hj⟩ : i < 1 ∧ j < 2 := Raster.lt_of_get?_eq_some hget
      cases hget.symm.trans (Raster.get?_ofFn _ ⟨i, hi⟩ ⟨j, hj⟩)
      rw [ite_self, hnone] at hcell
      cases hcell
    obtain ⟨whole, hwhole, hmatches, -, -⟩ :=
      ((hconsistent (-9999)).exists_box rfl (hpos _).1 (hpos _).2).2 hempty
    exact ⟨whole, hwhole, hmatches.extent.trans (by norm_num [pair])⟩

/-- Cells without height cannot be counted, so that a grid of them is not trimmed. -/
theorem boundingBox_flat_fails : flat.Consistent ∧
    of ⟨0, 0, 1, 0⟩ 1 0 (-9999) (.fill 1 1 5) = .ok flat ∧
    (Raster.fill 1 1 (5 : Float32)).Marks (holdsData flat.nodata) 0 0 ∧
    flat.boundingBox = .error (.number .divisionByZero) := by
  have hmarks : (Raster.fill 1 1 (5 : Float32)).Marks (holdsData flat.nodata) 0 0 :=
    ⟨5, Raster.get?_ofFn _ 0 0, by decide +kernel⟩
  obtain ⟨top, bottom, left, right, -, -, -, -, hframes⟩ := hmarks.exists_frames
  refine ⟨consistent_flat, of_eq_flat, hmarks, ?_⟩
  rw [boundingBox_eq_clip rfl (by norm_num [flat]) (by norm_num [flat]) hframes]
  exact clip_flat (by norm_num [flat]) rfl _

end Grid

end MapAlgebra
