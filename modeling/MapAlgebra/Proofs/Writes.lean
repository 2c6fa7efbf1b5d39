import MapAlgebra.Expression.Evaluation
import MapAlgebra.Proofs.Files
import MapAlgebra.Proofs.GridFile
import MapAlgebra.Proofs.Run

/-!
# Grid files that are written

A run writes grids, the metadata beside them and log records. Of the files that a grid may be read
from, those change that a grid was written to, and they hold the cells that were written last.
-/

namespace MapAlgebra

open Expression (idfSuffix)

/-- A place whose name ends as grid files do. -/
def IsGridPlace (place : Place) : Prop :=
  Text.endsCaseless idfSuffix (place.getLastD [])

namespace Path

/-- A path whose last part ends as grid files do. -/
def IsGridPath (path : Path) : Prop :=
  ∃ front name, path.parts = front ++ [name] ∧ Text.endsCaseless idfSuffix name

end Path

namespace Text

theorem endsCaseless_iff {ending text : Text} :
    endsCaseless ending text ↔ ending <:+ lowerAscii text :=
  List.isSuffixOf_iff_suffix

theorem endsCaseless_append_idf (text : Text) : endsCaseless idfSuffix (text ++ ".IDF".toList) := by
  rw [endsCaseless_iff, lowerAscii, List.map_append]
  exact List.suffix_append _ _

theorem not_endsCaseless_append_met (text : Text) :
    ¬ endsCaseless idfSuffix (text ++ ['.', 'M', 'E', 'T']) := by
  rw [endsCaseless_iff, lowerAscii, List.map_append]
  intro h
  have hlast := h.getLast (by decide)
  simp [idfSuffix] at hlast

theorem ne_up_of_endsCaseless {name : Text} (h : endsCaseless idfSuffix name) :
    name ≠ ['.', '.'] := by
  rintro rfl
  exact absurd h (by decide)

end Text

namespace Path

variable {path : Path}

theorem IsGridPath.isGridPlace (h : path.IsGridPath) {tree : FileTree} {place : Place}
    (hplace : tree.place path = .ok place) : IsGridPlace place := by
  obtain ⟨front, name, hparts, hname⟩ := h
  obtain ⟨directory, rfl⟩ :=
    FileTree.exists_of_place_eq_ok (Text.ne_up_of_endsCaseless hname) hparts hplace
  unfold IsGridPlace
  rwa [List.getLastD_concat]

theorem isGridPath_join_idf (directory : Path) (front : List Text) (name : Text) :
    (directory.join ⟨[], front ++ [name ++ ".IDF".toList]⟩).IsGridPath := by
  refine ⟨directory.parts ++ front, name ++ ".IDF".toList, ?_, Text.endsCaseless_append_idf name⟩
  rw [List.append_assoc]
  rfl

/-- The last piece of a text is the text, or it stands behind the last slash. -/
theorem exists_pieces_eq (text : Text) : ∃ front last,
    pieces text = front ++ [last] ∧
      (front = [] ∧ text = last ∨ front ≠ [] ∧ ∃ before, text = before ++ '/' :: last) := by
  fun_induction pieces text with
  | case1 => exact ⟨[], [], rfl, .inl ⟨rfl, rfl⟩⟩
  | case2 rest ih =>
      obtain ⟨front, last, hpieces, htext⟩ := ih
      refine ⟨[] :: front, last, by rw [hpieces]; rfl, .inr ⟨List.cons_ne_nil _ _, ?_⟩⟩
      rcases htext with ⟨-, rfl⟩ | ⟨-, before, rfl⟩
      · exact ⟨[], rfl⟩
      · exact ⟨'/' :: before, rfl⟩
  | case3 c rest hslash hnil ih =>
      obtain ⟨front, last, hpieces, -⟩ := ih
      rw [hnil] at hpieces
      exact absurd hpieces.symm (List.append_ne_nil_of_right_ne_nil _ (List.cons_ne_nil _ _))
  | case4 c rest hslash piece more hmore ih =>
      obtain ⟨front, last, hpieces, htext⟩ := ih
      rw [hmore] at hpieces
      rcases htext with ⟨rfl, rfl⟩ | ⟨hfront, before, rfl⟩
      · obtain ⟨rfl, rfl⟩ := List.cons.inj hpieces
        exact ⟨[], c :: piece, rfl, .inl ⟨rfl, rfl⟩⟩
      · obtain ⟨first, others, rfl⟩ := List.exists_cons_of_ne_nil hfront
        obtain ⟨rfl, rfl⟩ := List.cons.inj hpieces
        exact ⟨(c :: piece) :: others, last, rfl, .inr ⟨List.cons_ne_nil _ _, c :: before, rfl⟩⟩

theorem isGridPath_ofText {text : Text} (h : Text.endsCaseless idfSuffix text) :
    (ofText text).IsGridPath := by
  obtain ⟨front, last, hpieces, htext⟩ := exists_pieces_eq text
  have hlast : Text.endsCaseless idfSuffix last := by
    rcases htext with ⟨-, rfl⟩ | ⟨-, before, rfl⟩
    · exact h
    · rw [Text.endsCaseless_iff] at h ⊢
      rw [Text.lowerAscii, List.map_append, List.map_cons] at h
      -- there is no slash in the ending, so all of it stands behind the last slash
      have hbehind : '/' :: Text.lowerAscii last <:+ before.map Char.toLower ++
          '/' :: Text.lowerAscii last := List.suffix_append _ _
      rcases List.suffix_or_suffix_of_suffix h hbehind with hsuffix | hslash
      · rcases List.suffix_cons_iff.mp hsuffix with heq | hsuffix
        · cases heq
        · exact hsuffix
      · exact absurd (hslash.subset List.mem_cons_self) (by decide)
  refine ⟨front.filter fun piece => piece != [] && piece != ['.'], last, ?_, hlast⟩
  have hne : last ≠ [] ∧ last ≠ ['.'] := by
    constructor
    · rintro rfl
      exact absurd hlast (by decide)
    · rintro rfl
      exact absurd hlast (by decide)
  show (pieces text).filter _ = _
  rw [hpieces, List.filter_append]
  simp [hne]

theorem isGridPath_resolveInput {K V : Type} (settings : Settings K V) {name : Text}
    (h : Text.endsCaseless idfSuffix name) : (settings.resolveInput name).IsGridPath := by
  obtain ⟨front, last, hparts, hlast⟩ := isGridPath_ofText h
  unfold Settings.resolveInput
  split
  next base _ =>
    unfold join
    dsimp only
    split
    next => exact ⟨front, last, hparts, hlast⟩
    next =>
      refine ⟨base.parts ++ front, last, ?_, hlast⟩
      show base.parts ++ (ofText name).parts = _
      rw [hparts, List.append_assoc]
  next => exact ⟨front, last, hparts, hlast⟩

/-- Metadata goes beside a grid and not to a place of one. -/
theorem not_isGridPlace_metadata {tree : FileTree} {place : Place}
    (hplace : tree.place (Metadata.pathFor path) = .ok place) : ¬ IsGridPlace place := by
  have hup : path.stem ++ ['.', 'M', 'E', 'T'] ≠ ['.', '.'] := by
    intro h
    have hlength := congrArg List.length h
    rw [List.length_append] at hlength
    simp only [List.length_cons, List.length_nil] at hlength
    omega
  obtain ⟨directory, rfl⟩ := FileTree.exists_of_place_eq_ok hup rfl hplace
  unfold IsGridPlace
  rw [List.getLastD_concat]
  exact Text.not_endsCaseless_append_met _

end Path

section Writes

variable {K V S : Type} [Coordinate K] [Number V] [Cell S V]

omit [Number V] [Cell S V] in
/-- The cells that were written to a place last. -/
def lastWrite (place : Place) (writes : List (Place × Raster S)) : Option (Raster S) :=
  (writes.reverse.find? fun write => write.1 == place).map (·.2)

theorem lastWrite_append (place : Place) (writes more : List (Place × Raster S)) :
    lastWrite place (writes ++ more) = (lastWrite place more).or (lastWrite place writes) := by
  unfold lastWrite
  rw [List.reverse_append, List.find?_append, Option.map_or]

theorem lastWrite_singleton (place other : Place) (cells : Raster S) :
    lastWrite place [(other, cells)] = if other = place then some cells else none := by
  unfold lastWrite
  rw [List.reverse_singleton, List.find?_singleton]
  by_cases h : other = place
  · rw [if_pos h, if_pos (beq_iff_eq.mpr h)]
    rfl
  · rw [if_neg h, if_neg (by simpa using h)]
    rfl

/-- Files among which the given cells were written, one raster after the other. Where a grid may be
read from, nothing else has changed. -/
structure Written (K : Type) [Coordinate K] (writes : List (Place × Raster S))
    (before after : FileTree) : Prop where
  directories : FileTree.SameDirectories before after
  unwritten : ∀ place bytes, IsGridPlace place → lastWrite place writes = none →
    before.node? place = some (.file bytes) → after.node? place = some (.file bytes)
  written : ∀ place cells, IsGridPlace place → lastWrite place writes = some cells →
    ∃ bytes, after.node? place = some (.file bytes) ∧ Idf.Holds K bytes cells

namespace Written

variable {writes more : List (Place × Raster S)} {before between after : FileTree} {path : Path}
  {place : Place}

theorem refl (files : FileTree) : Written (S := S) K [] files files where
  directories := .refl files
  unwritten _ _ _ _ h := h
  written _ _ _ h := nomatch h

theorem trans (h : Written K writes before between) (h' : Written K more between after) :
    Written K (writes ++ more) before after where
  directories := h.directories.trans h'.directories
  unwritten place bytes hgrid hnone hbytes := by
    rw [lastWrite_append, Option.or_eq_none_iff] at hnone
    exact h'.unwritten place bytes hgrid hnone.1 (h.unwritten place bytes hgrid hnone.2 hbytes)
  written place cells hgrid hlast := by
    rw [lastWrite_append] at hlast
    -- a later write hides what an earlier one left at the place
    cases hmore : lastWrite place more with
    | some last =>
        rw [hmore, Option.some_or] at hlast
        cases hlast
        exact h'.written place cells hgrid hmore
    | none =>
        rw [hmore, Option.none_or] at hlast
        obtain ⟨bytes, hbytes, hholds⟩ := h.written place cells hgrid hlast
        exact ⟨bytes, h'.unwritten place bytes hgrid hmore hbytes, hholds⟩

/-- A file that no grid was written to reads as before. -/
theorem read_eq_ok (h : Written K writes before after) (hplace : before.place path = .ok place)
    (hgrid : IsGridPlace place) (hnone : lastWrite place writes = none) {bytes : List UInt8}
    (hread : before.read path = .ok bytes) : after.read path = .ok bytes := by
  obtain ⟨found, hfound, hnode⟩ := FileTree.read_eq_ok_iff.mp hread
  cases hplace.symm.trans hfound
  exact FileTree.read_eq_ok_iff.mpr
    ⟨place, h.directories.place_eq_ok hplace, h.unwritten place bytes hgrid hnone hnode⟩

/-- A file that grids were written to reads as the last of them. -/
theorem exists_read_of_lastWrite (h : Written K writes before after)
    (hplace : after.place path = .ok place) (hgrid : IsGridPlace place) {cells : Raster S}
    (hlast : lastWrite place writes = some cells) :
    ∃ bytes, after.read path = .ok bytes ∧ Idf.readCells (K := K) after path = .ok cells := by
  obtain ⟨bytes, hnode, hholds⟩ := h.written place cells hgrid hlast
  have hread := FileTree.read_eq_ok_iff.mpr ⟨place, hplace, hnode⟩
  exact ⟨bytes, hread, hholds after path hread⟩

/-- A file that could be read can be read, whatever was written. -/
theorem exists_read_eq_ok (h : Written K writes before after) (hpath : path.IsGridPath)
    (hread : ∃ bytes, before.read path = .ok bytes) : ∃ bytes, after.read path = .ok bytes := by
  obtain ⟨bytes, hbytes⟩ := hread
  obtain ⟨place, hplace, -⟩ := FileTree.read_eq_ok_iff.mp hbytes
  have hgrid := hpath.isGridPlace hplace
  cases hlast : lastWrite place writes with
  | none => exact ⟨bytes, h.read_eq_ok hplace hgrid hlast hbytes⟩
  | some cells =>
      obtain ⟨found, hfound, -⟩ :=
        h.exists_read_of_lastWrite (h.directories.place_eq_ok hplace) hgrid hlast
      exact ⟨found, hfound⟩

/-- Where no grid was written a file that could be read reads as before. -/
theorem read_eq (h : Written (S := S) K [] before after) (hpath : path.IsGridPath)
    (hread : ∃ bytes, before.read path = .ok bytes) : after.read path = before.read path := by
  obtain ⟨bytes, hbytes⟩ := hread
  obtain ⟨place, hplace, -⟩ := FileTree.read_eq_ok_iff.mp hbytes
  rw [h.read_eq_ok hplace (hpath.isGridPlace hplace) rfl hbytes, hbytes]

theorem of_extends (h : FileTree.Extends before after) : Written (S := S) K [] before after where
  directories := h.sameDirectories
  unwritten place _ _ _ := h.node place _
  written _ _ _ h := nomatch h

/-- Where no grid may be read from, a file changes without being noticed. -/
theorem of_write {bytes : List UInt8}
    (hgrid : ∀ place, before.place path = .ok place → ¬ IsGridPlace place)
    (h : before.write path bytes = .ok after) : Written (S := S) K [] before after := by
  obtain ⟨place, hplace, hdirectories, hnode⟩ := FileTree.write_eq_ok h
  refine ⟨hdirectories, fun other old hother _ hold => ?_, fun _ _ _ h => nomatch h⟩
  rw [hnode, if_neg, hold]
  rintro rfl
  exact hgrid _ hplace hother

theorem of_writeAt {offset : Nat} {bytes : List UInt8}
    (hgrid : ∀ place, before.place path = .ok place → ¬ IsGridPlace place) :
    Written (S := S) K [] before (before.writeAt path offset bytes) := by
  unfold FileTree.writeAt
  split
  next => exact .refl _
  next =>
    dsimp only
    split
    next hwrite => exact .of_write hgrid hwrite
    next => exact .refl _

/-- Where a grid was written its cells stand, and nothing else has changed. -/
theorem of_encode [LawfulCell S] {grid : Grid K V S} {cells : Raster S} {bytes : List UInt8}
    (hencode : Idf.encode grid cells = (bytes, .ok ())) (hplace : before.place path = .ok place)
    (h : before.write path bytes = .ok after) : Written K [(place, cells)] before after := by
  obtain ⟨found, hfound, hdirectories, hnode⟩ := FileTree.write_eq_ok h
  cases hplace.symm.trans hfound
  refine ⟨hdirectories, fun other old _ hnone hold => ?_, fun other last _ hlast => ?_⟩
  · rw [lastWrite_singleton] at hnone
    rw [hnode, if_neg, hold]
    rintro rfl
    rw [if_pos rfl] at hnone
    cases hnone
  · rw [lastWrite_singleton] at hlast
    split at hlast
    next heq =>
      cases hlast
      exact ⟨bytes, by rw [hnode, if_pos heq.symm], Idf.holds_of_encode hencode⟩
    next => cases hlast

end Written

/-- A grid that is written stands where its path leads, with the metadata beside it. -/
theorem Grid.write_eq_ok [LawfulCell S] {grid : Grid K V S} {path : Path}
    {metadata : Option Metadata} {before after : FileTree}
    (h : grid.write path metadata before = (.ok (), after)) :
    ∃ place cells, grid.values = .ok cells ∧ after.place path = .ok place ∧
      Written K [(place, cells)] before after := by
  have hmade : Written (S := S) K [] before (before.ensureDirectories path.parent).2 :=
    .of_extends (FileTree.ensureDirectories_extends before path.parent)
  unfold Grid.write at h
  generalize before.ensureDirectories path.parent = made at h hmade
  obtain ⟨_ | _, between⟩ := made
  · cases h
  · dsimp only at h hmade
    cases hcells : grid.values with
    | error fault =>
        rw [hcells] at h
        cases h
    | ok cells =>
        rw [hcells] at h
        dsimp only at h
        rcases hencode : Idf.encode grid cells with ⟨bytes, outcome⟩
        rw [hencode] at h
        dsimp only at h
        cases hwrite : between.write path bytes with
        | error fault =>
            rw [hwrite] at h
            cases h
        | ok stored =>
            rw [hwrite] at h
            obtain ⟨place, hplace, -⟩ := FileTree.write_eq_ok hwrite
            cases outcome with
            | error fault => cases h
            | ok done =>
                have hstored : Written K [(place, cells)] between stored :=
                  .of_encode hencode hplace hwrite
                have hplaced := hstored.directories.place_eq_ok hplace
                cases metadata with
                | none =>
                    cases h
                    exact ⟨place, cells, rfl, hplaced, hmade.trans hstored⟩
                | some metadata =>
                    dsimp only at h
                    split at h
                    next final hmetadata =>
                      cases h
                      -- metadata has an ending of its own and changes no grid
                      have hfinal : Written (S := S) K [] stored after :=
                        .of_write (fun _ => Path.not_isGridPlace_metadata) hmetadata
                      exact ⟨place, cells, rfl, hfinal.directories.place_eq_ok hplaced,
                        (hmade.trans hstored).trans hfinal⟩
                    next => cases h

end Writes

end MapAlgebra
