import MapAlgebra.Proofs.Enlarging
import MapAlgebra.Proofs.Selection

/-!
# Other values for NoData

A value can stand for NoData in place of another one if no cell with data holds it. The cells with
data are then the same as before, and still are when the first value is put in its place again.
Values are the same if they are equal as numbers, or both are no number. They mark cells in single
precision, where values that are not the same may mark the same cells.
-/

namespace MapAlgebra

variable {K V S α β γ : Type}

theorem Double.same_comm (x y : Float) : Number.same x y = Number.same y x := by
  show (if x.isNaN || y.isNaN then x.isNaN && y.isNaN else x == y) =
    if y.isNaN || x.isNaN then y.isNaN && x.isNaN else y == x
  rw [Bool.or_comm, Bool.and_comm, Double.beq_comm]

namespace Raster

theorem map_map (f : α → β) (g : β → γ) (raster : Raster α) :
    (raster.map f).map g = raster.map (g ∘ f) :=
  eq_of_get? rfl rfl fun i j _ _ => by rw [get?_map, get?_map, get?_map, Option.map_map]

theorem map_congr {raster : Raster α} {f g : α → β}
    (h : ∀ i j a, raster.get? i j = some a → f a = g a) : raster.map f = raster.map g := by
  refine eq_of_get? rfl rfl fun i j _ _ => ?_
  rw [get?_map, get?_map]
  exact Option.map_congr fun a ha => h i j a ha

end Raster

namespace Grid

/-- The cell at a row and a column of a grid whose cells are resident. -/
def cell? (grid : Grid K V S) (i j : ℕ) : Option S :=
  match grid.cells with
  | .resident cells => cells.get? i j
  | .onDisk _ => none

variable {grid other third : Grid K V S} {cells : Raster S} {i j : ℕ} {cell : S}

theorem cell?_of_resident (h : grid.cells = .resident cells) (i j : ℕ) :
    grid.cell? i j = cells.get? i j := by
  unfold cell?
  rw [h]

variable [Number V] [Cell S V]

theorem nodataMask_of_resident (h : grid.cells = .resident cells) :
    grid.nodataMask = .ok (cells.map (holdsNodata grid.nodata)) := by
  unfold nodataMask
  rw [values_eq_ok_iff.mpr h]
  rfl

/-- A grid with data in the same cells as another one, and with the same data in them. -/
structure SharesData (grid other : Grid K V S) : Prop where
  nodataMask : other.nodataMask = grid.nodataMask
  data : ∀ i j cell, grid.cell? i j = some cell → holdsNodata grid.nodata cell = false →
    other.cell? i j = some cell

namespace SharesData

theorem refl (grid : Grid K V S) : grid.SharesData grid :=
  ⟨rfl, fun _ _ _ hcell _ => hcell⟩

/-- A cell with data of the other grid is one of the grid. -/
theorem of_data (h : grid.SharesData other) (hcell : other.cell? i j = some cell)
    (hdata : holdsNodata other.nodata cell = false) :
    grid.cell? i j = some cell ∧ holdsNodata grid.nodata cell = false := by
  obtain ⟨held, hheld⟩ : ∃ held, other.cells = .resident held := by
    unfold cell? at hcell
    split at hcell
    next held hheld => exact ⟨held, hheld⟩
    next => cases hcell
  have hmask := (nodataMask_of_resident hheld).symm.trans h.nodataMask
  obtain ⟨cells, hcells⟩ : ∃ cells, grid.cells = .resident cells := by
    unfold Grid.nodataMask Grid.values at hmask
    split at hmask
    next cells hcells => exact ⟨cells, hcells⟩
    next => cases hmask
  rw [nodataMask_of_resident hcells, Except.ok.injEq] at hmask
  have hmarked := congrArg (Raster.get? · i j) hmask
  simp only [Raster.get?_map, ← cell?_of_resident hheld, ← cell?_of_resident hcells, hcell,
    Option.map_some, hdata] at hmarked
  obtain ⟨own, hown, hvalid⟩ := Option.map_eq_some_iff.mp hmarked.symm
  cases hcell.symm.trans (h.data i j own hown hvalid)
  exact ⟨hown, hvalid⟩

theorem symm (h : grid.SharesData other) : other.SharesData grid :=
  ⟨h.nodataMask.symm, fun _ _ _ hcell hdata => (h.of_data hcell hdata).1⟩

theorem trans (h : grid.SharesData other) (h' : other.SharesData third) :
    grid.SharesData third := by
  refine ⟨h'.nodataMask.trans h.nodataMask, fun i j cell hcell hdata => ?_⟩
  obtain ⟨hother, hvalid⟩ := h.symm.of_data hcell hdata
  exact h'.data i j cell hother hvalid

end SharesData

/-- No cell with data of a grid holds a value. -/
def Free (grid : Grid K V S) (nodata : V) : Prop :=
  ∀ i j cell, grid.cell? i j = some cell → holdsNodata grid.nodata cell = false →
    holdsNodata nodata cell = false

/-- The NoData value of a grid that shares its data is free in the other grid. -/
theorem SharesData.free (h : grid.SharesData other) : other.Free grid.nodata :=
  fun _ _ _ hcell hdata => (h.of_data hcell hdata).2

section Doubles

variable {grid : Grid K Float Float32} {cells : Raster Float32} {nodata : Float}

/-- With a free value for NoData a grid shares its data with the one it was. -/
theorem Free.exists_withNodata (h : grid.Free nodata) (hcells : grid.cells = .resident cells)
    (hdiffer : Number.same nodata grid.nodata = false) :
    ∃ changed, grid.withNodata nodata = .ok changed ∧ changed.nodata = nodata ∧
      grid.SharesData changed := by
  let remarked := fun cell : Float32 =>
    if holdsNodata grid.nodata cell then Cell.narrow nodata else cell
  let changed : Grid K Float Float32 := { grid.derive (cells.map remarked) with nodata }
  have hchanged : changed.cells = .resident (cells.map remarked) := rfl
  refine ⟨changed, ?_, rfl, ?_, ?_⟩
  · unfold withNodata
    rw [hdiffer, values_eq_ok_iff.mpr hcells]
    rfl
  · rw [nodataMask_of_resident hchanged, nodataMask_of_resident hcells, Raster.map_map]
    refine congrArg Except.ok (Raster.map_congr fun i j cell hcell => ?_)
    rw [← cell?_of_resident hcells] at hcell
    show holdsNodata nodata (if holdsNodata grid.nodata cell then Cell.narrow nodata else cell) = _
    cases hdata : holdsNodata grid.nodata cell with
    | false => exact h i j cell hcell hdata
    | true => exact Double.holdsNodata_narrow nodata
  · intro i j cell hcell hdata
    rw [cell?_of_resident hchanged, Raster.get?_map, ← cell?_of_resident hcells, hcell]
    exact congrArg some (if_neg (by rw [hdata]; exact Bool.false_ne_true))

/-- A grid whose NoData value is redefined as a value that no cell with data holds has that value
for NoData, in the same cells, and the same data. Redefined as what it was, it has the NoData value
and the cells without data that it had, and the same data. A grid that has the value already is
kept. -/
theorem IsShaped.exists_redefined (h : grid.IsShaped) (hfree : grid.Free nodata) :
    ∃ changed restored, grid.withNodata nodata = .ok changed ∧
      Number.same changed.nodata nodata ∧ grid.Matches changed ∧ grid.SharesData changed ∧
      changed.withNodata grid.nodata = .ok restored ∧ restored.nodata = grid.nodata ∧
      grid.Matches restored ∧ grid.SharesData restored ∧
      (Number.same nodata grid.nodata → changed = grid ∧ restored = grid) ∧
      (¬ Number.same nodata grid.nodata → changed.nodata = nodata) := by
  have hself : grid.withNodata grid.nodata = .ok grid := if_pos (Double.same_self _)
  by_cases hsame : Number.same nodata grid.nodata
  · have hkept : grid.withNodata nodata = .ok grid := if_pos hsame
    have hmatches := matches_withNodata h nodata grid hkept
    exact ⟨grid, grid, hkept, Double.same_comm nodata grid.nodata ▸ hsame, hmatches, .refl grid,
      hself, rfl, hmatches, .refl grid, fun _ => ⟨rfl, rfl⟩, fun hdiffer => absurd hsame hdiffer⟩
  · have hdiffer := Bool.eq_false_of_not_eq_true hsame
    obtain ⟨cells, hcells, -⟩ := id h
    obtain ⟨changed, hchanged, hnodata, hshares⟩ := hfree.exists_withNodata hcells hdiffer
    have hmatches := matches_withNodata h nodata changed hchanged
    obtain ⟨held, hheld, -⟩ := hmatches.isShaped
    have hback : Number.same grid.nodata changed.nodata = false := by
      rw [Double.same_comm, hnodata, hdiffer]
    obtain ⟨restored, hrestored, hwas, hshared⟩ := hshares.free.exists_withNodata hheld hback
    have hmatches' := matches_withNodata hmatches.isShaped grid.nodata restored hrestored
    exact ⟨changed, restored, hchanged, hnodata ▸ Double.same_self _, hmatches, hshares, hrestored,
      hwas, hmatches.trans hmatches', hshares.trans hshared, fun hsame' => absurd hsame' hsame,
      fun _ => hnodata⟩

/-- A cell with data keeps it while no number stands for NoData, and the NoData value comes back. -/
theorem exists_redefined_pair : ∃ changed restored : Grid ℚ Float Float32,
    (pair 0 1 (-9999) 7).IsShaped ∧ (pair 0 1 (-9999) 7).Free Float.nan ∧
      (pair 0 1 (-9999) 7).withNodata Float.nan = .ok changed ∧ changed.nodata = Float.nan ∧
      changed.cell? 0 1 = some 7 ∧ changed.withNodata (-9999) = .ok restored ∧
      restored.nodata = -9999 ∧ restored.cell? 0 1 = some 7 := by
  have hdata : holdsNodata (-9999 : Float) (7 : Float32) = false := by decide +kernel
  have hnumber : holdsNodata Float.nan (7 : Float32) = false := by decide +kernel
  have hmissing : holdsNodata (-9999 : Float) (-9999 : Float32) = true := by decide +kernel
  have hdiffer : ¬ Number.same Float.nan (-9999 : Float) := by decide +kernel
  have hshaped := (consistent_pair 0 1 (-9999) 7).isShaped
  have hfree : (pair 0 1 (-9999) 7).Free Float.nan := by
    intro i j cell hcell hvalid
    obtain ⟨hi, hj⟩ : i < 1 ∧ j < 2 := Raster.lt_of_get?_eq_some hcell
    cases hcell.symm.trans (Raster.get?_ofFn _ ⟨i, hi⟩ ⟨j, hj⟩)
    by_cases hleft : j = 0
    · rw [if_pos hleft] at hvalid
      cases hmissing.symm.trans hvalid
    · rw [if_neg hleft]
      exact hnumber
  obtain ⟨changed, restored, hchanged, -, -, hshares, hrestored, hwas, -, hshared, -, hnodata⟩ :=
    hshaped.exists_redefined hfree
  have hseven : (pair 0 1 (-9999) 7).cell? 0 1 = some 7 := rfl
  exact ⟨changed, restored, hshaped, hfree, hchanged, hnodata hdiffer,
    hshares.data 0 1 7 hseven hdata, hrestored, hwas, hshared.data 0 1 7 hseven hdata⟩

end Doubles

end Grid

end MapAlgebra
