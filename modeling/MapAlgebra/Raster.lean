/-!
# Rasters

A raster is a matrix of cells, the first row on top. Cells are read by row and column; rasters of
different shape combine when a single row or column can stand for all.
-/

namespace MapAlgebra

/-- A matrix of cells. -/
structure Raster (α : Type) where
  rows : Nat
  cols : Nat
  cells : Vector (Vector α cols) rows

namespace Raster

variable {α β γ : Type}

/-- The raster with the given cells. -/
def ofFn (rows cols : Nat) (cell : Fin rows → Fin cols → α) : Raster α :=
  ⟨rows, cols, Vector.ofFn fun i => Vector.ofFn fun j => cell i j⟩

def get (raster : Raster α) (i : Fin raster.rows) (j : Fin raster.cols) : α :=
  raster.cells[i.val][j.val]

/-- The cell at a row and column, if the raster has it. -/
def get? (raster : Raster α) (i j : Nat) : Option α :=
  if h : i < raster.rows ∧ j < raster.cols then some (raster.get ⟨i, h.1⟩ ⟨j, h.2⟩) else none

@[simp] theorem rows_ofFn (rows cols : Nat) (cell : Fin rows → Fin cols → α) :
    (ofFn rows cols cell).rows = rows := rfl

@[simp] theorem cols_ofFn (rows cols : Nat) (cell : Fin rows → Fin cols → α) :
    (ofFn rows cols cell).cols = cols := rfl

@[simp] theorem get_ofFn (rows cols : Nat) (cell : Fin rows → Fin cols → α)
    (i : Fin rows) (j : Fin cols) : (ofFn rows cols cell).get i j = cell i j := by
  simp [get, ofFn]

/-- The raster with one cell everywhere. -/
def fill (rows cols : Nat) (a : α) : Raster α :=
  ofFn rows cols fun _ _ => a

/-- The raster of cells that are found one by one; none if one is not found. -/
def build? (rows cols : Nat) (cell : Fin rows → Fin cols → Option α) : Option (Raster α) :=
  if h : ∀ i j, (cell i j).isSome then some (ofFn rows cols fun i j => (cell i j).get (h i j))
  else none

/-- The raster with the given rows; none when they differ in length. -/
def ofRows? (rows : List (List α)) : Option (Raster α) :=
  let cols := (rows.head?.map List.length).getD 0
  if rows.all fun row => row.length == cols then
    build? rows.length cols fun i j => (rows[i])[j]?
  else none

/-- The raster whose cells come row by row; none when their number is not that of the shape. -/
def ofList? (rows cols : Nat) (cells : List α) : Option (Raster α) :=
  if cells.length = rows * cols then
    let cells := cells.toArray
    build? rows cols fun i j => cells[i.val * cols + j.val]?
  else none

theorem index_lt {rows cols i j : Nat} (hi : i < rows) (hj : j < cols) :
    i * cols + j < rows * cols :=
  calc i * cols + j < i * cols + cols := Nat.add_lt_add_left hj _
    _ = (i + 1) * cols := (Nat.succ_mul i cols).symm
    _ ≤ rows * cols := Nat.mul_le_mul_right cols hi

/-- The raster whose cells come row by row. -/
def ofVector (rows cols : Nat) (cells : Vector α (rows * cols)) : Raster α :=
  ofFn rows cols fun i j => cells.get ⟨i.val * cols + j.val, index_lt i.isLt j.isLt⟩

/-- The rows from top to bottom. -/
def toRows (raster : Raster α) : List (List α) :=
  raster.cells.toList.map Vector.toList

/-- The cells row by row. -/
def toList (raster : Raster α) : List α :=
  raster.toRows.flatten

def map (f : α → β) (raster : Raster α) : Raster β :=
  ofFn raster.rows raster.cols fun i j => f (raster.get i j)

/-- A raster with every cell at its place: row, column, cell. -/
def mapIdx (f : Nat → Nat → α → β) (raster : Raster α) : Raster β :=
  ofFn raster.rows raster.cols fun i j => f i j (raster.get i j)

/-- The raster seen in another shape. A single row or column stands for all. -/
def stretch? (raster : Raster α) (rows cols : Nat) : Option (Raster α) :=
  if raster.rows = rows ∧ raster.cols = cols then some raster
  else if (raster.rows = rows ∨ raster.rows = 1) ∧ (raster.cols = cols ∨ raster.cols = 1) then
    build? rows cols fun i j =>
      raster.get? (if raster.rows = rows then i else 0) (if raster.cols = cols then j else 0)
  else none

/-- The common length of two sides, one of which may stand for all with length one. -/
def joinLength? (a b : Nat) : Option Nat :=
  if a = b || b = 1 then some a else if a = 1 then some b else none

/-- Two rasters combined cell by cell in their common shape. -/
def zipWith? (f : α → β → γ) (a : Raster α) (b : Raster β) : Option (Raster γ) := do
  let rows ← joinLength? a.rows b.rows
  let cols ← joinLength? a.cols b.cols
  let a ← a.stretch? rows cols
  let b ← b.stretch? rows cols
  build? rows cols fun i j => do
    let x ← a.get? i j
    let y ← b.get? i j
    some (f x y)

/-- The rows from `top` to before `bottom` and the columns from `left` to before `right`, as far
as the raster has them. -/
def window (raster : Raster α) (top bottom left right : Nat) : Raster α :=
  let bottom := min bottom raster.rows
  let right := min right raster.cols
  ofFn (bottom - top) (right - left) fun i j =>
    raster.get ⟨top + i, by omega⟩ ⟨left + j, by omega⟩

/-- The raster with rows and columns of one cell around it. -/
def pad (raster : Raster α) (top bottom left right : Nat) (a : α) : Raster α :=
  ofFn (top + raster.rows + bottom) (left + raster.cols + right) fun i j =>
    if h : (top ≤ i.val ∧ i.val < top + raster.rows) ∧
        (left ≤ j.val ∧ j.val < left + raster.cols) then
      raster.get ⟨i - top, by omega⟩ ⟨j - left, by omega⟩
    else a

/-- The numbers of the rows with a cell that satisfies a test. -/
def rowsWith (test : α → Bool) (raster : Raster α) : List Nat :=
  (List.finRange raster.rows).filterMap fun i =>
    if (List.finRange raster.cols).any fun j => test (raster.get i j) then some i.val else none

/-- The numbers of the columns with a cell that satisfies a test. -/
def colsWith (test : α → Bool) (raster : Raster α) : List Nat :=
  (List.finRange raster.cols).filterMap fun j =>
    if (List.finRange raster.rows).any fun i => test (raster.get i j) then some j.val else none

/-- The raster with one cell replaced; none outside. -/
def set? (raster : Raster α) (row col : Nat) (a : α) : Option (Raster α) :=
  if row < raster.rows ∧ col < raster.cols then
    some (raster.mapIdx fun i j b => if i = row ∧ j = col then a else b)
  else none

end Raster

end MapAlgebra
