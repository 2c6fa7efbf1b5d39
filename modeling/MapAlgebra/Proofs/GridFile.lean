import Mathlib.Data.List.Flatten
import MapAlgebra.Idf.File
import MapAlgebra.Proofs.Single

/-!
# What a grid file holds

A file that a grid was written to reads as the cells of the grid.
-/

namespace MapAlgebra

namespace Raster

variable {α β : Type}

theorem toList_eq (raster : Raster α) : raster.toList = raster.cells.flatten.toList := by
  obtain ⟨rows, cols, ⟨cells, rfl⟩⟩ := raster
  show (cells.toList.map Vector.toList).flatten = (cells.map Vector.toArray).flatten.toList
  rw [Array.toList_flatten, Array.toList_map, List.map_map]
  rfl

theorem length_toList (raster : Raster α) : raster.toList.length = raster.rows * raster.cols := by
  rw [toList_eq, Vector.length_toList]

theorem getElem?_toList (raster : Raster α) (i : Fin raster.rows) (j : Fin raster.cols) :
    raster.toList[i.val * raster.cols + j.val]? = some (raster.get i j) := by
  have hcols : 0 < raster.cols := Nat.lt_of_le_of_lt (Nat.zero_le _) j.isLt
  have hrow : (i.val * raster.cols + j.val) / raster.cols = i.val := by
    rw [Nat.mul_comm, Nat.mul_add_div hcols, Nat.div_eq_of_lt j.isLt, Nat.add_zero]
  have hcol : (i.val * raster.cols + j.val) % raster.cols = j.val := by
    rw [Nat.mul_comm, Nat.mul_add_mod, Nat.mod_eq_of_lt j.isLt]
  have hlt : i.val * raster.cols + j.val < raster.rows * raster.cols :=
    Nat.lt_of_lt_of_le (Nat.add_lt_add_left j.isLt _)
      (by rw [← Nat.succ_mul]; exact Nat.mul_le_mul_right _ i.isLt)
  rw [toList_eq, Vector.getElem?_toList, Vector.getElem?_eq_getElem hlt, Vector.getElem_flatten]
  simp only [hrow, hcol]
  rfl

theorem ofFn_get (raster : Raster α) : ofFn raster.rows raster.cols raster.get = raster := by
  obtain ⟨rows, cols, cells⟩ := raster
  unfold ofFn get
  congr 1
  ext i hi j hj
  simp

/-- The cells row by row make up the raster. -/
theorem ofList?_toList (raster : Raster α) :
    ofList? raster.rows raster.cols raster.toList = some raster := by
  have hcell : (fun (i : Fin raster.rows) (j : Fin raster.cols) =>
      raster.toList.toArray[i.val * raster.cols + j.val]?) =
      fun i j => some (raster.get i j) := by
    funext i j
    rw [List.getElem?_toArray, getElem?_toList]
  unfold ofList?
  rw [if_pos raster.length_toList]
  dsimp only
  rw [hcell]
  exact (dif_pos fun i j => rfl).trans (congrArg some raster.ofFn_get)

end Raster

namespace Bytes

theorem toWords_flatMap_ofWord (words : List UInt32) : toWords (words.flatMap ofWord) = words := by
  induction words with
  | nil => rfl
  | cons word words ih => rw [List.flatMap_cons, toWords_ofWord_append, ih]

theorem length_ofWord (word : UInt32) : (ofWord word).length = 4 := rfl

theorem toInt_ofInt {n : Int} (hleast : Int32.minValue.toInt ≤ n)
    (hgreatest : n ≤ Int32.maxValue.toInt) : toInt (ofInt n) = n := by
  unfold toInt ofInt
  rw [Int32.toInt32_toUInt32]
  exact Int32.toInt_ofInt_of_le hleast (Int.lt_of_le_of_lt hgreatest (by decide))

end Bytes

/-- Cells that are read as they were written. -/
class LawfulCell (S : Type) {V : Type} [Cell S V] : Prop where
  ofSingle_ofBits (cell : S) : Cell.ofSingle (Float32.ofBits (Cell.toSingle cell).toBits) = cell

instance : LawfulCell Float32 where
  ofSingle_ofBits := Double.ofBits_toBits

namespace Idf

variable {K V S : Type} [Coordinate K] [Number V] [Cell S V]

/-- Bytes that are read as the given cells wherever they stand. -/
def Holds (K : Type) [Coordinate K] (bytes : List UInt8) (cells : Raster S) : Prop :=
  ∀ (files : FileTree) (path : Path),
    files.read path = .ok bytes → readCells (K := K) files path = .ok cells

namespace Header

/-- The words in which a header in single precision is stored. The levels flag is the second byte of
its word. -/
def words (header : Header Float32 Float32) : List UInt32 :=
  [Bytes.ofInt marker, Bytes.ofInt header.cols, Bytes.ofInt header.rows, header.xmin.toBits,
    header.xmax.toBits, header.ymin.toBits, header.ymax.toBits, header.least.toBits,
    header.greatest.toBits, header.nodata.toBits, if header.top.isSome then 256 else 0,
    header.cellWidth.toBits, header.cellHeight.toBits] ++
    (header.top.toList ++ header.bottom.toList).map Float32.toBits

/-- The header that is read from a header in single precision. -/
def widened (header : Header Float32 Float32) : Header K V where
  cols := header.cols
  rows := header.rows
  xmin := Coordinate.ofSingle header.xmin
  xmax := Coordinate.ofSingle header.xmax
  ymin := Coordinate.ofSingle header.ymin
  ymax := Coordinate.ofSingle header.ymax
  least := Number.ofSingle header.least
  greatest := Number.ofSingle header.greatest
  nodata := Number.ofSingle header.nodata
  cellWidth := Coordinate.ofSingle header.cellWidth
  cellHeight := Coordinate.ofSingle header.cellHeight
  top := header.top.map Number.ofSingle
  bottom := header.bottom.map Number.ofSingle

/-- A header and what it is in single precision. -/
structure RoundsTo (header : Header K V) (single : Header Float32 Float32) : Prop where
  cols : single.cols = header.cols
  rows : single.rows = header.rows
  xmin : Coordinate.toSingle? header.xmin = some single.xmin
  xmax : Coordinate.toSingle? header.xmax = some single.xmax
  ymin : Coordinate.toSingle? header.ymin = some single.ymin
  ymax : Coordinate.toSingle? header.ymax = some single.ymax
  least : Number.toSingle? header.least = some single.least
  greatest : Number.toSingle? header.greatest = some single.greatest
  nodata : Number.toSingle? header.nodata = some single.nodata
  cellWidth : Coordinate.toSingle? header.cellWidth = some single.cellWidth
  cellHeight : Coordinate.toSingle? header.cellHeight = some single.cellHeight
  top : header.top.map Number.toSingle? = single.top.map some
  bottom : header.bottom.map Number.toSingle? = single.bottom.map some

theorem length_widened (header : Header Float32 Float32) :
    (header.widened : Header K V).length = header.length := by
  unfold length widened
  rw [Option.isSome_map]

/-- Rounding keeps the levels paired. -/
theorem RoundsTo.paired {header : Header K V} {single : Header Float32 Float32}
    (h : header.RoundsTo single) (hpaired : header.top.isSome = header.bottom.isSome) :
    single.top.isSome = single.bottom.isSome := by
  have htop := congrArg Option.isSome h.top
  have hbottom := congrArg Option.isSome h.bottom
  rw [Option.isSome_map, Option.isSome_map] at htop hbottom
  rw [← htop, hpaired, hbottom]

theorem exists_of_pack_cons {number : Option Float32} {numbers : List (Option Float32)}
    {bytes : List UInt8} (h : pack (number :: numbers) = some bytes) :
    ∃ single rest, number = some single ∧ pack numbers = some rest ∧
      bytes = Bytes.ofWord single.toBits ++ rest := by
  unfold pack at h
  rw [List.mapM_cons, Option.bind_eq_bind, Option.map_eq_some_iff] at h
  obtain ⟨_, h, rfl⟩ := h
  obtain ⟨single, rfl, hrest⟩ := Option.bind_eq_some_iff.mp h
  rw [Option.bind_eq_bind] at hrest
  obtain ⟨singles, hsingles, heq⟩ := Option.bind_eq_some_iff.mp hrest
  cases heq
  refine ⟨single, _, rfl, ?_, List.flatMap_cons⟩
  rw [pack, hsingles]
  rfl

theorem eq_nil_of_pack_nil {bytes : List UInt8} (h : pack [] = some bytes) : bytes = [] := by
  cases h
  rfl

theorem word_flatMap (words : List UInt32) (body : List UInt8) {index : Nat}
    (h : index < words.length) :
    word (words.flatMap Bytes.ofWord ++ body) index = words[index] := by
  induction words generalizing index with
  | nil => cases h
  | cons first words ih =>
      rw [List.flatMap_cons, List.append_assoc]
      cases index with
      | zero =>
          unfold word
          rw [Nat.mul_zero, List.drop_zero, List.take_left' (Bytes.length_ofWord first),
            ← List.append_nil (Bytes.ofWord first), Bytes.toWords_ofWord_append]
          rfl
      | succ index =>
          unfold word at ih ⊢
          rw [Nat.mul_add, Nat.add_comm, ← List.drop_drop]
          exact ih (Nat.lt_of_succ_lt_succ h)

/-- The parts of a header that has all of them, with the levels as a third part of no length where
there are none. -/
theorem exists_parts {header : Header K V} (hpaired : header.top.isSome = header.bottom.isSome)
    (h : header.parts.all Option.isSome) :
    ∃ numbers sizes levels,
      pack [Coordinate.toSingle? header.xmin, Coordinate.toSingle? header.xmax,
        Coordinate.toSingle? header.ymin, Coordinate.toSingle? header.ymax,
        Number.toSingle? header.least, Number.toSingle? header.greatest,
        Number.toSingle? header.nodata] = some numbers ∧
      pack [Coordinate.toSingle? header.cellWidth, Coordinate.toSingle? header.cellHeight] =
        some sizes ∧
      pack ((header.top.toList ++ header.bottom.toList).map Number.toSingle?) = some levels ∧
      (header.parts.takeWhile Option.isSome).flatMap (fun part => part.getD []) =
        [marker, header.cols, header.rows].flatMap (fun n => Bytes.ofWord (Bytes.ofInt n)) ++
          (numbers ++ (Bytes.ofWord (if header.top.isSome then 256 else 0) ++
            (sizes ++ levels))) := by
  unfold parts at h ⊢
  dsimp only at h ⊢
  cases htop : header.top with
  | none =>
      rw [htop] at h
      simp only [List.all_cons, List.all_nil, Bool.and_true, Bool.and_eq_true, Option.isSome_map,
        Option.isSome_iff_exists] at h
      obtain ⟨⟨numbers, hnumbers⟩, sizes, hsizes⟩ := h
      have hbottom : header.bottom = none := by
        rw [htop] at hpaired
        exact Option.isNone_iff_eq_none.mp (Option.isSome_eq_false_iff.mp hpaired.symm)
      refine ⟨numbers, sizes, [], hnumbers, hsizes, by rw [hbottom]; rfl, ?_⟩
      rw [hnumbers, hsizes]
      simp [Bytes.ofWord]
  | some top =>
      obtain ⟨bottom, hbottom⟩ : ∃ bottom, header.bottom = some bottom := by
        rw [htop] at hpaired
        exact Option.isSome_iff_exists.mp hpaired.symm
      rw [htop, hbottom] at h
      simp only [List.all_cons, List.all_nil, Bool.and_true, Bool.and_eq_true, Option.isSome_map,
        Option.isSome_iff_exists] at h
      obtain ⟨⟨numbers, hnumbers⟩, ⟨sizes, hsizes⟩, levels, hlevels⟩ := h
      refine ⟨numbers, sizes, levels, hnumbers, hsizes, by rw [hbottom]; exact hlevels, ?_⟩
      rw [hbottom]
      dsimp only
      rw [hnumbers, hsizes, hlevels]
      simp [Bytes.ofWord]

omit [Coordinate K] in
theorem exists_levels {top bottom : Option V} (hpaired : top.isSome = bottom.isSome)
    {bytes : List UInt8}
    (h : pack ((top.toList ++ bottom.toList).map Number.toSingle?) = some bytes) :
    ∃ singleTop singleBottom : Option Float32, top.map Number.toSingle? = singleTop.map some ∧
      bottom.map Number.toSingle? = singleBottom.map some ∧
      bytes = ((singleTop.toList ++ singleBottom.toList).map Float32.toBits).flatMap
        Bytes.ofWord := by
  cases top with
  | none =>
      cases bottom with
      | some bottom => cases hpaired
      | none => exact ⟨none, none, rfl, rfl, eq_nil_of_pack_nil h⟩
  | some top =>
      cases bottom with
      | none => cases hpaired
      | some bottom =>
          obtain ⟨singleTop, _, htop, hrest, rfl⟩ := exists_of_pack_cons h
          obtain ⟨singleBottom, _, hbottom, hnil, rfl⟩ := exists_of_pack_cons hrest
          refine ⟨some singleTop, some singleBottom, congrArg some htop, congrArg some hbottom, ?_⟩
          rw [eq_nil_of_pack_nil hnil]
          rfl

/-- A header none of whose parts is missing is stored as what it is in single precision. -/
theorem exists_roundsTo {header : Header K V} (hpaired : header.top.isSome = header.bottom.isSome)
    (h : header.parts.all Option.isSome) :
    ∃ single, header.RoundsTo single ∧
      (header.parts.takeWhile Option.isSome).flatMap (fun part => part.getD []) =
        single.words.flatMap Bytes.ofWord := by
  obtain ⟨numbers, sizes, levels, hnumbers, hsizes, hlevels, hbytes⟩ := exists_parts hpaired h
  obtain ⟨xmin, _, hxmin, h₁, rfl⟩ := exists_of_pack_cons hnumbers
  obtain ⟨xmax, _, hxmax, h₂, rfl⟩ := exists_of_pack_cons h₁
  obtain ⟨ymin, _, hymin, h₃, rfl⟩ := exists_of_pack_cons h₂
  obtain ⟨ymax, _, hymax, h₄, rfl⟩ := exists_of_pack_cons h₃
  obtain ⟨least, _, hleast, h₅, rfl⟩ := exists_of_pack_cons h₄
  obtain ⟨greatest, _, hgreatest, h₆, rfl⟩ := exists_of_pack_cons h₅
  obtain ⟨nodata, _, hnodata, h₇, rfl⟩ := exists_of_pack_cons h₆
  obtain ⟨width, _, hwidth, h₈, rfl⟩ := exists_of_pack_cons hsizes
  obtain ⟨height, _, hheight, h₉, rfl⟩ := exists_of_pack_cons h₈
  obtain ⟨top, bottom, htop, hbottom, rfl⟩ := exists_levels hpaired hlevels
  rw [eq_nil_of_pack_nil h₇, eq_nil_of_pack_nil h₉] at hbytes
  have hlevels : top.isSome = header.top.isSome := by
    simpa using (congrArg Option.isSome htop).symm
  refine ⟨⟨header.cols, header.rows, xmin, xmax, ymin, ymax, least, greatest, nodata, width, height,
    top, bottom⟩, ⟨rfl, rfl, hxmin, hxmax, hymin, hymax, hleast, hgreatest, hnodata, hwidth,
    hheight, htop, hbottom⟩, ?_⟩
  rw [hbytes, words, hlevels]
  simp

theorem length_words {header : Header Float32 Float32}
    (hpaired : header.top.isSome = header.bottom.isSome) :
    (header.words.flatMap Bytes.ofWord).length = header.length := by
  obtain ⟨_, _, _, _, _, _, _, _, _, _, _, top, bottom⟩ := header
  cases top <;> cases bottom <;> first | rfl | cases hpaired

/-- The words of a header are decoded, whatever comes behind them. -/
theorem decode_words (path : Text) {header : Header Float32 Float32}
    (hpaired : header.top.isSome = header.bottom.isSome)
    (hcols : Bytes.toInt (Bytes.ofInt header.cols) = header.cols)
    (hrows : Bytes.toInt (Bytes.ofInt header.rows) = header.rows) (body : List UInt8) :
    decode path (header.words.flatMap Bytes.ofWord ++ body) =
      .ok (header.widened : Header K V) := by
  have hlength : header.length ≤ (header.words.flatMap Bytes.ofWord ++ body).length := by
    rw [List.length_append, length_words hpaired]
    exact Nat.le_add_right _ _
  have hflag : (header.words.flatMap Bytes.ofWord ++ body)[40]? = some 0 := by
    unfold words
    cases header.top.isSome <;> rfl
  have hlevels : ((header.words.flatMap Bytes.ofWord ++ body)[41]? != some 0) =
      header.top.isSome := by
    unfold words
    cases header.top.isSome <;> rfl
  have hword (index : Nat) (h : index < header.words.length) :
      word (header.words.flatMap Bytes.ofWord ++ body) index = header.words[index] :=
    word_flatMap header.words body h
  have hsingle (index : Nat) (x : Float32) (h : header.words[index]? = some x.toBits) :
      single (header.words.flatMap Bytes.ofWord ++ body) index = x := by
    obtain ⟨hindex, h⟩ := List.getElem?_eq_some_iff.mp h
    rw [single, hword index hindex, h, Double.ofBits_toBits]
  generalize header.words.flatMap Bytes.ofWord ++ body = bytes at *
  have hmarker : Bytes.toInt (word bytes 0) = marker := by
    rw [hword 0 (by simp [words])]
    rfl
  have hreadCols : Bytes.toInt (word bytes 1) = header.cols := by
    rw [hword 1 (by simp [words])]
    exact hcols
  have hreadRows : Bytes.toInt (word bytes 2) = header.rows := by
    rw [hword 2 (by simp [words])]
    exact hrows
  have hnumbers : headLength + (if header.top.isSome then 16 else 8) ≤ bytes.length := by
    refine Nat.le_trans (Nat.le_of_eq ?_) hlength
    unfold length
    split <;> rfl
  -- the levels are the last two words, if there are any
  have htop : (if header.top.isSome then some (Number.ofSingle (single bytes 13) : V) else none) =
      header.top.map Number.ofSingle := by
    cases htop : header.top with
    | none => rfl
    | some top =>
        rw [hsingle 13 top (by rw [words, htop]; rfl)]
        rfl
  have hbottom : (if header.top.isSome then some (Number.ofSingle (single bytes 14) : V)
      else none) = header.bottom.map Number.ofSingle := by
    rw [hpaired]
    cases hbottom : header.bottom with
    | none => rfl
    | some bottom =>
        obtain ⟨top, htop⟩ : ∃ top, header.top = some top :=
          Option.isSome_iff_exists.mp (by rw [hpaired, hbottom]; rfl)
        rw [hsingle 14 bottom (by rw [words, htop, hbottom]; rfl)]
        rfl
  unfold decode
  dsimp only
  rw [hmarker, hflag, hlevels, if_neg (by omega), if_neg (by decide), if_neg (by decide),
    if_neg (by decide), if_neg (by omega), htop, hbottom, hreadCols, hreadRows,
    hsingle 3 header.xmin rfl, hsingle 4 header.xmax rfl, hsingle 5 header.ymin rfl,
    hsingle 6 header.ymax rfl, hsingle 7 header.least rfl, hsingle 8 header.greatest rfl,
    hsingle 9 header.nodata rfl, hsingle 11 header.cellWidth rfl, hsingle 12 header.cellHeight rfl]
  rfl

theorem paired_ofGrid (grid : Grid K V S) (cells : Raster S) :
    (ofGrid grid cells).top.isSome = (ofGrid grid cells).bottom.isSome := by
  unfold ofGrid
  dsimp only
  cases grid.top <;> cases grid.bottom <;> rfl

end Header

omit [Coordinate K] [Number V] in
theorem decodeCells_eq_ok [LawfulCell S] (path : Text) {header : Header K V} {cells : Raster S}
    {bytes : List UInt8} (hcols : header.cols = cells.cols) (hrows : header.rows = cells.rows)
    (hbytes : bytes.drop header.length =
      cells.toList.flatMap fun cell => Bytes.ofWord (Cell.toSingle cell).toBits) :
    decodeCells path header bytes = .ok cells := by
  have hwords : Bytes.toWords (bytes.drop header.length) =
      cells.toList.map fun cell => (Cell.toSingle cell).toBits := by
    rw [hbytes, ← Bytes.toWords_flatMap_ofWord (cells.toList.map _), List.flatMap_map]
  have hcells : (cells.toList.map fun cell => (Cell.toSingle cell).toBits).map
      (fun word => (Cell.ofSingle (Float32.ofBits word) : S)) = cells.toList := by
    rw [List.map_map]
    exact (List.map_congr_left fun cell _ => LawfulCell.ofSingle_ofBits cell).trans (List.map_id _)
  have hwanted : header.rows * header.cols = ((cells.rows * cells.cols : Nat) : Int) := by
    rw [hrows, hcols]
    rfl
  have hlength : (cells.toList.map fun cell => (Cell.toSingle cell).toBits).length =
      cells.rows * cells.cols := by
    rw [List.length_map, cells.length_toList]
  unfold decodeCells
  dsimp only
  rw [hwords, hwanted, if_pos (Int.natCast_nonneg _), Int.toNat_natCast,
    List.take_of_length_le (Nat.le_of_eq hlength), hlength, if_neg (by simp), if_neg, hcells,
    hrows, hcols, Int.toNat_natCast, Int.toNat_natCast, cells.ofList?_toList]
  rw [hrows, hcols]
  simp

omit [Coordinate K] [Number V] in
theorem Header.counts_fit {header : Header K V} (h : header.countsFit) :
    Bytes.toInt (Bytes.ofInt header.cols) = header.cols ∧
      Bytes.toInt (Bytes.ofInt header.rows) = header.rows := by
  simp only [countsFit, List.all_cons, List.all_nil, Bool.and_true, Bool.and_eq_true,
    decide_eq_true_eq] at h
  exact ⟨Bytes.toInt_ofInt h.1.1 h.1.2, Bytes.toInt_ofInt h.2.1 h.2.2⟩

/-- A grid is stored as its header in single precision and its cells. -/
theorem exists_of_encode {grid : Grid K V S} {cells : Raster S} {bytes : List UInt8}
    (h : encode grid cells = (bytes, .ok ())) :
    ∃ single, (Header.ofGrid grid cells).RoundsTo single ∧
      Bytes.toInt (Bytes.ofInt single.cols) = single.cols ∧
      Bytes.toInt (Bytes.ofInt single.rows) = single.rows ∧
      bytes = single.words.flatMap Bytes.ofWord ++
        cells.toList.flatMap fun cell => Bytes.ofWord (Cell.toSingle cell).toBits := by
  unfold encode at h
  dsimp only at h
  split at h
  next => cases h
  next hfit =>
    split at h
    next hparts =>
      obtain ⟨single, hrounds, hhead⟩ :=
        Header.exists_roundsTo (Header.paired_ofGrid grid cells) hparts
      obtain ⟨hcols, hrows⟩ := Header.counts_fit (by simpa using hfit)
      cases h
      refine ⟨single, hrounds, ?_, ?_, by rw [hhead]⟩
      · rw [hrounds.cols, hcols]
      · rw [hrounds.rows, hrows]
    next => cases h

/-- What a grid was written as reads as its header in single precision and its cells. -/
theorem decode_of_encode [LawfulCell S] {grid : Grid K V S} {cells : Raster S} {bytes : List UInt8}
    (h : encode grid cells = (bytes, .ok ())) :
    ∃ single : Header Float32 Float32, (Header.ofGrid grid cells).RoundsTo single ∧
      bytes.drop single.length =
        (cells.toList.flatMap fun cell => Bytes.ofWord (Cell.toSingle cell).toBits) ∧
      ∀ path, Header.decode path bytes = .ok (single.widened : Header K V) ∧
        decodeCells path (single.widened : Header K V) bytes = .ok cells := by
  obtain ⟨single, hrounds, hcols, hrows, rfl⟩ := exists_of_encode h
  have hpaired := hrounds.paired (Header.paired_ofGrid grid cells)
  have hdrop (body : List UInt8) :
      (single.words.flatMap Bytes.ofWord ++ body).drop single.length = body :=
    List.drop_left' (Header.length_words hpaired)
  refine ⟨single, hrounds, hdrop _, fun path =>
    ⟨Header.decode_words path hpaired hcols hrows _, ?_⟩⟩
  exact decodeCells_eq_ok path hrounds.cols hrounds.rows
    (by rw [Header.length_widened, hdrop])

/-- What a grid was written as reads as its cells. -/
theorem holds_of_encode [LawfulCell S] {grid : Grid K V S} {cells : Raster S} {bytes : List UInt8}
    (h : encode grid cells = (bytes, .ok ())) : Holds K bytes cells := by
  obtain ⟨single, -, -, hdecode⟩ := decode_of_encode h
  intro files path hread
  obtain ⟨hheader, hcells⟩ := hdecode path.toText
  unfold readCells readHeader
  rw [hread]
  dsimp only
  rw [hheader]
  exact hcells

end Idf

end MapAlgebra
