import MapAlgebra.Proofs.Agreement
import MapAlgebra.Proofs.Trails

/-!
# Notes

Evaluation writes texts besides grids: metadata and log records. No grid is read from them, since
metadata begins like no grid file. File trees that differ in such notes only take the same changes,
and the grids that are read from them are the same.
-/

namespace MapAlgebra

namespace Bytes

theorem toList_loop (bytes : ByteArray) (i : Nat) (front : List UInt8) :
    ByteArray.toList.loop bytes i front = front.reverse ++ bytes.data.toList.drop i := by
  fun_induction ByteArray.toList.loop bytes i front with
  | case1 i front h ih =>
      have hi : i < bytes.data.toList.length := by simpa using h
      rw [ih, List.drop_eq_getElem_cons hi]
      simp [ByteArray.get!, h]
  | case2 i front h =>
      rw [List.drop_eq_nil_of_le (by simpa using Nat.le_of_not_lt h), List.append_nil]

/-- A text is stored character by character. -/
theorem ofText_eq (text : Text) : ofText text = text.flatMap String.utf8EncodeChar := by
  unfold ofText ByteArray.toList
  rw [toList_loop]
  show (text.utf8Encode).data.toList = _
  rw [List.utf8Encode, List.toList_data_toByteArray]

end Bytes

/-- Bytes that begin like metadata. -/
def IsNote (bytes : List UInt8) : Prop :=
  ∃ rest, bytes = 68 :: 101 :: 115 :: 99 :: rest

theorem isNote_metadata (metadata : Metadata) : IsNote (Bytes.ofText metadata.toText) := by
  rw [Bytes.ofText_eq]
  exact ⟨_, rfl⟩

/-- Notes are refused as grid files. -/
theorem IsNote.decode {K V : Type} [Coordinate K] [Number V] {bytes : List UInt8}
    (h : IsNote bytes) (path : Text) :
    ∃ fault, (Idf.Header.decode path bytes : Except FormatFault (Idf.Header K V)) = .error fault ∧
      (Fault.format fault).kind = .format := by
  obtain ⟨rest, rfl⟩ := h
  have hmarker : Bytes.toInt (Idf.Header.word (68 :: 101 :: 115 :: 99 :: rest) 0) = 1668506948 :=
    rfl
  unfold Idf.Header.decode
  dsimp only
  rw [hmarker]
  split
  next => exact ⟨_, rfl, rfl⟩
  next => exact ⟨_, rfl, rfl⟩


/-- Bytes that are the same, unless they are those of notes or of a file that is put aside. -/
def SameBytes (aside : Prop) (bytes bytes' : List UInt8) : Prop :=
  bytes = bytes' ∨ aside ∨ IsNote bytes ∧ IsNote bytes'

namespace SameBytes

variable {aside : Prop} {bytes bytes' bytes'' : List UInt8}

theorem symm (h : SameBytes aside bytes bytes') : SameBytes aside bytes' bytes :=
  h.imp Eq.symm (Or.imp_right And.symm)

theorem trans (h : SameBytes aside bytes bytes') (h' : SameBytes aside bytes' bytes'') :
    SameBytes aside bytes bytes'' := by
  rcases h with rfl | haside | ⟨hnote, hnote'⟩
  · exact h'
  · exact .inr (.inl haside)
  · rcases h' with rfl | haside | ⟨-, hnote''⟩
    · exact .inr (.inr ⟨hnote, hnote'⟩)
    · exact .inr (.inl haside)
    · exact .inr (.inr ⟨hnote, hnote''⟩)

/-- Metadata is a note, whatever it says. -/
theorem of_metadata (metadata metadata' : Metadata) :
    SameBytes aside (Bytes.ofText metadata.toText) (Bytes.ofText metadata'.toText) :=
  .inr (.inr ⟨isNote_metadata metadata, isNote_metadata metadata'⟩)

end SameBytes

/-- What stands at one place of two trees. -/
inductive SameNode (aside : Prop) : Option Node → Option Node → Prop
  | none : SameNode aside none none
  | directory : SameNode aside (some .directory) (some .directory)
  | file {bytes bytes' : List UInt8} (h : SameBytes aside bytes bytes') :
      SameNode aside (some (.file bytes)) (some (.file bytes'))

namespace SameNode

variable {aside : Prop} {node node' : Option Node}

theorem refl (aside : Prop) (node : Option Node) : SameNode aside node node := by
  match node with
  | Option.none => exact .none
  | some .directory => exact .directory
  | some (.file bytes) => exact .file (.inl rfl)

theorem directory_iff (h : SameNode aside node node') :
    node = some .directory ↔ node' = some .directory := by
  cases h with
  | none => exact Iff.rfl
  | directory => exact Iff.rfl
  | file => exact ⟨nofun, nofun⟩

end SameNode

/-- Outcomes of changes of files: related results, or the same fault. -/
inductive SameOutcome {α : Type} (Q : α → α → Prop) :
    Except FileFault α → Except FileFault α → Prop
  | ok {a b : α} (h : Q a b) : SameOutcome Q (.ok a) (.ok b)
  | error {fault : FileFault} : SameOutcome Q (.error fault) (.error fault)

namespace FileTree

/-- Two trees with the same directories and the same files, but for notes and the files that are put
aside. -/
structure SameButNotes (aside : Place → Prop) (files files' : FileTree) : Prop where
  current : files'.current = files.current
  node : ∀ place, SameNode (aside place) (files.node? place) (files'.node? place)

/-- The place that a path names is the one that it leads to by its names. -/
theorem eq_target_of_place_eq_ok {tree : FileTree} {path : Path} {place : Place}
    (h : tree.place path = .ok place) : place = tree.target path := by
  have hfollow {start : Place} {names : List Text} (h : tree.follow start names = .ok place) :
      place = names.foldl Place.enter start := by
    fun_induction tree.follow start names with
    | case1 start =>
        cases h
        rfl
    | case2 start rest ih => exact ih h
    | case3 start name hname =>
        cases h
        exact (Place.enter_of_ne hname start).symm
    | case4 start name rest hne hname hnode ih =>
        rw [List.foldl_cons, Place.enter_of_ne hne]
        exact ih h
    | case5 => cases h
    | case6 => cases h
  unfold FileTree.place at h
  split at h
  next => cases h
  next => exact hfollow h

namespace SameButNotes

variable {aside : Place → Prop} {files files' : FileTree} {path : Path} {place : Place}

theorem refl (aside : Place → Prop) (files : FileTree) : SameButNotes aside files files :=
  ⟨rfl, fun _ => .refl _ _⟩

theorem follow_eq (h : SameButNotes aside files files') (start : Place) (names : List Text) :
    files'.follow start names = files.follow start names := by
  fun_induction files.follow start names with
  | case1 start => rfl
  | case2 start rest ih => exact ih
  | case3 start name hname =>
      rw [follow]
      exact hname
  | case4 start name rest hne hname hnode ih =>
      have hnode' := (h.node _).directory_iff.mp hnode
      rw [follow]
      · rw [hnode', ih]
      · exact hne
      · exact hname
  | case5 start name rest hne hname bytes hnode =>
      have hsame := h.node (start ++ [name])
      rw [follow]
      · rw [hnode] at hsame
        generalize files'.node? (start ++ [name]) = node' at hsame ⊢
        cases hsame
        rfl
      · exact hne
      · exact hname
  | case6 start name rest hne hname hnode =>
      have hsame := h.node (start ++ [name])
      rw [follow]
      · rw [hnode] at hsame
        generalize files'.node? (start ++ [name]) = node' at hsame ⊢
        cases hsame
        rfl
      · exact hne
      · exact hname

/-- A path names the same place. -/
theorem place_eq (h : SameButNotes aside files files') (path : Path) :
    files'.place path = files.place path := by
  unfold FileTree.place
  rw [h.current, h.follow_eq]

theorem lookup? (h : SameButNotes aside files files') (path : Path) :
    SameNode (aside (files.target path)) (files.lookup? path) (files'.lookup? path) := by
  unfold FileTree.lookup?
  rw [h.place_eq]
  cases hplace : files.place path with
  | error fault => exact .none
  | ok place =>
      rw [← eq_target_of_place_eq_ok hplace]
      exact h.node place

theorem isDirectory_eq (h : SameButNotes aside files files') (path : Path) :
    files'.isDirectory path = files.isDirectory path := by
  unfold FileTree.isDirectory
  rw [Bool.eq_iff_iff, beq_iff_eq, beq_iff_eq]
  exact (h.lookup? path).directory_iff.symm

/-- What is read is the same, unless it is a note. -/
theorem read (h : SameButNotes aside files files') (path : Path) :
    SameOutcome (SameBytes (aside (files.target path))) (files.read path) (files'.read path) := by
  unfold FileTree.read
  rw [h.place_eq]
  cases hplace : files.place path with
  | error fault => exact .error
  | ok place =>
      have hnode := h.node place
      rw [← eq_target_of_place_eq_ok hplace]
      dsimp only [bind, Except.bind]
      generalize files.node? place = node, files'.node? place = node' at hnode ⊢
      cases hnode with
      | none => exact .error
      | directory => exact .error
      | file hbytes => exact .ok hbytes

theorem put (h : SameButNotes aside files files') (hplace : place ≠ []) {node node' : Node}
    (hnode : SameNode (aside place) (some node) (some node')) :
    SameButNotes aside (files.put place node) (files'.put place node') := by
  refine ⟨by rw [current_put, current_put, h.current], fun other => ?_⟩
  rw [node?_put hplace, node?_put hplace]
  split
  next heq => exact heq ▸ hnode
  next => exact h.node other

/-- What stands at the place of a new entry, and at the place above. -/
theorem change (h : SameButNotes aside files files') {node node' : Node}
    (hnode : SameNode (aside place) (some node) (some node')) (hplace : place ≠ []) :
    SameOutcome (SameButNotes aside)
      (match files.node? place.dropLast with
        | some .directory => .ok (files.put place node)
        | some (.file _) => .error .notDirectory
        | none => .error .notFound)
      (match files'.node? place.dropLast with
        | some .directory => .ok (files'.put place node')
        | some (.file _) => .error .notDirectory
        | none => .error .notFound) := by
  have hparent := h.node place.dropLast
  generalize files.node? place.dropLast = parent, files'.node? place.dropLast = parent'
    at hparent ⊢
  cases hparent with
  | none => exact .error
  | directory => exact .ok (h.put hplace hnode)
  | file => exact .error

theorem write (h : SameButNotes aside files files') (path : Path) {bytes bytes' : List UInt8}
    (hbytes : SameBytes (aside (files.target path)) bytes bytes') :
    SameOutcome (SameButNotes aside) (files.write path bytes) (files'.write path bytes') := by
  unfold FileTree.write
  rw [h.place_eq]
  cases hplace : files.place path with
  | error fault => exact .error
  | ok place =>
      rw [← eq_target_of_place_eq_ok hplace] at hbytes
      have hnode := h.node place
      dsimp only [bind, Except.bind]
      by_cases hroot : place = []
      · subst hroot
        exact .error
      · generalize hnone : files.node? place = node, files'.node? place = node' at hnode
        cases hnode with
        | none => exact h.change (.file hbytes) hroot
        | directory => exact .error
        | file => exact .ok (h.put hroot (.file hbytes))

theorem makeDirectory (h : SameButNotes aside files files') (path : Path) :
    SameOutcome (SameButNotes aside) (files.makeDirectory path) (files'.makeDirectory path) := by
  unfold FileTree.makeDirectory
  rw [h.place_eq]
  cases hplace : files.place path with
  | error fault => exact .error
  | ok place =>
      have hnode := h.node place
      dsimp only [bind, Except.bind]
      by_cases hroot : place = []
      · subst hroot
        exact .error
      · generalize files.node? place = node, files'.node? place = node' at hnode
        cases hnode with
        | none => exact h.change .directory hroot
        | directory => exact .error
        | file => exact .error

theorem ensureDirectory (h : SameButNotes aside files files') (path : Path) :
    SameOutcome (SameButNotes aside) (files.ensureDirectory path)
      (files'.ensureDirectory path) := by
  have hmade := h.makeDirectory path
  unfold FileTree.ensureDirectory
  rw [h.isDirectory_eq]
  generalize files.makeDirectory path = made, files'.makeDirectory path = made' at hmade ⊢
  cases hmade with
  | ok hmade => exact .ok hmade
  | error =>
      dsimp only
      split
      next => exact .ok h
      next => exact .error

theorem ensureDirectories (h : SameButNotes aside files files') (path : Path) :
    (files'.ensureDirectories path).1 = (files.ensureDirectories path).1 ∧
      SameButNotes aside (files.ensureDirectories path).2 (files'.ensureDirectories path).2 := by
  unfold FileTree.ensureDirectories
  generalize path.parts.length = depth
  -- up to the first directory that can be made, and down again from it
  induction depth generalizing path with
  | zero =>
      have hmade := h.makeDirectory path
      rw [ensureDirectories.go, ensureDirectories.go, h.isDirectory_eq]
      generalize files.makeDirectory path = made, files'.makeDirectory path = made' at hmade ⊢
      cases hmade with
      | ok hmade => exact ⟨rfl, hmade⟩
      | @error fault =>
          cases fault
          case notFound => exact ⟨rfl, h⟩
          all_goals
            dsimp only
            split <;> exact ⟨rfl, h⟩
  | succ depth ih =>
      have hmade := h.makeDirectory path
      have habove := ih path.parent
      rw [ensureDirectories.go, ensureDirectories.go, h.isDirectory_eq]
      generalize files.makeDirectory path = made, files'.makeDirectory path = made' at hmade ⊢
      cases hmade with
      | ok hmade => exact ⟨rfl, hmade⟩
      | @error fault =>
          cases fault
          case notFound =>
            dsimp only
            generalize ensureDirectories.go depth path.parent files = above,
              ensureDirectories.go depth path.parent files' = above' at habove ⊢
            obtain ⟨outcome, above⟩ := above
            obtain ⟨outcome', above'⟩ := above'
            obtain ⟨rfl, habove⟩ := habove
            rcases outcome' with fault | ⟨⟩
            · exact ⟨rfl, habove⟩
            · have hlast := SameButNotes.ensureDirectory habove path
              dsimp only
              generalize above.ensureDirectory path = last, above'.ensureDirectory path = last'
                at hlast ⊢
              cases hlast with
              | ok hlast => exact ⟨rfl, hlast⟩
              | error => exact ⟨rfl, habove⟩
          all_goals
            dsimp only
            split <;> exact ⟨rfl, h⟩

theorem symm (h : SameButNotes aside files files') : SameButNotes aside files' files := by
  refine ⟨h.current.symm, fun place => ?_⟩
  have hnode := h.node place
  generalize files.node? place = node, files'.node? place = node' at hnode ⊢
  cases hnode with
  | none => exact .none
  | directory => exact .directory
  | file hbytes => exact .file hbytes.symm

theorem trans {files'' : FileTree} (h : SameButNotes aside files files')
    (h' : SameButNotes aside files' files'') : SameButNotes aside files files'' := by
  refine ⟨h'.current.trans h.current, fun place => ?_⟩
  have hnode := h.node place
  have hnode' := h'.node place
  generalize files.node? place = node, files'.node? place = node',
    files''.node? place = node'' at hnode hnode' ⊢
  cases hnode with
  | none =>
      cases hnode'
      exact .none
  | directory =>
      cases hnode'
      exact .directory
  | file hbytes =>
      cases hnode' with
      | file hbytes' => exact .file (hbytes.trans hbytes')

/-- Writing to a file that is put aside makes no difference. -/
theorem of_writeAt (haside : aside (files.target path)) (offset : Nat) (bytes : List UInt8) :
    SameButNotes aside files (files.writeAt path offset bytes) := by
  unfold FileTree.writeAt
  split
  next => exact .refl _ _
  next old hread =>
    dsimp only
    split
    next written hwritten =>
      obtain ⟨place, hplace, hnode⟩ := read_eq_ok_iff.mp hread
      obtain ⟨place', hplace', hfile, rfl⟩ := write_eq_put hwritten
      obtain rfl : place = place' := Except.ok.inj (hplace.symm.trans hplace')
      have hne : place ≠ [] := by
        rintro rfl
        exact hfile rfl
      rw [← eq_target_of_place_eq_ok hplace] at haside
      refine ⟨current_put .., fun other => ?_⟩
      rw [node?_put hne]
      split
      next heq =>
        rw [heq, hnode]
        exact .file (.inr (.inl haside))
      next => exact .refl _ _
    next => exact .refl _ _

end SameButNotes

end FileTree

section Grids

variable {K V S : Type} [Coordinate K] [Number V] [Cell S V] {aside : Place → Prop}
  {files files' : FileTree} {path : Path}

/-- Writing a grid goes the same way, whatever its metadata says. -/
theorem Grid.write_sameButNotes (h : files.SameButNotes aside files') (grid : Grid K V S)
    (path : Path) {metadata metadata' : Option Metadata}
    (hmetadata : metadata'.isSome = metadata.isSome) :
    Matching Eq (grid.write path metadata files).1 (grid.write path metadata' files').1 ∧
      (grid.write path metadata files).2.SameButNotes aside
        (grid.write path metadata' files').2 := by
  obtain ⟨houtcome, hmade⟩ := h.ensureDirectories path.parent
  unfold Grid.write
  generalize files.ensureDirectories path.parent = made,
    files'.ensureDirectories path.parent = made' at houtcome hmade ⊢
  obtain ⟨outcome, made⟩ := made
  obtain ⟨outcome', made'⟩ := made'
  dsimp only at houtcome hmade
  subst houtcome
  rcases outcome' with fault | ⟨⟩
  · exact ⟨.error rfl, hmade⟩
  dsimp only
  cases grid.values with
  | error fault => exact ⟨.error rfl, hmade⟩
  | ok cells =>
      dsimp only
      generalize Idf.encode grid cells = encoded
      obtain ⟨bytes, outcome⟩ := encoded
      have hwritten := hmade.write path (.inl rfl : SameBytes _ bytes bytes)
      dsimp only
      generalize made.write path bytes = written, made'.write path bytes = written'
        at hwritten ⊢
      cases hwritten with
      | error => exact ⟨.error rfl, hmade⟩
      | ok hwritten =>
          rcases outcome with fault | ⟨⟩
          · exact ⟨.error rfl, hwritten⟩
          · match metadata, metadata' with
            | none, none => exact ⟨.ok rfl, hwritten⟩
            | none, some _ => cases hmetadata
            | some _, none => cases hmetadata
            | some metadata, some metadata' =>
                have hbeside := hwritten.write (Metadata.pathFor path)
                  (.of_metadata metadata metadata')
                dsimp only
                generalize FileTree.write _ _ (Bytes.ofText metadata.toText) = beside,
                  FileTree.write _ _ (Bytes.ofText metadata'.toText) = beside' at hbeside ⊢
                cases hbeside with
                | ok hbeside => exact ⟨.ok rfl, hbeside⟩
                | error => exact ⟨.error rfl, hwritten⟩

/-- Writing a grid does not change directory. -/
theorem Grid.current_write (grid : Grid K V S) (metadata : Option Metadata) (files : FileTree) :
    (grid.write path metadata files).2.current = files.current := by
  have hwrite {before after : FileTree} {path : Path} {bytes : List UInt8}
      (h : before.write path bytes = .ok after) : after.current = before.current := by
    obtain ⟨place, -, -, rfl⟩ := FileTree.write_eq_put h
    exact FileTree.current_put ..
  have hmade := (FileTree.ensureDirectories_extends files path.parent).current
  unfold Grid.write
  split
  next heq =>
    rw [heq] at hmade
    exact hmade
  next made heq =>
    rw [heq] at hmade
    split
    next => exact hmade
    next =>
      dsimp only
      split
      next => exact hmade
      next written hwritten =>
        split
        next =>
          split
          next beside hbeside =>
            exact (hwrite hbeside).trans ((hwrite hwritten).trans hmade)
          next => exact (hwrite hwritten).trans hmade
        next => exact (hwrite hwritten).trans hmade

/-- The cells that are read from a file are the same, unless it is put aside. -/
theorem Idf.readCells_sameButNotes (h : files.SameButNotes aside files')
    (hpath : ¬ aside (files.target path)) :
    Matching Eq (readCells (K := K) (V := V) files path : Except Fault (Raster S))
      (readCells (K := K) (V := V) files' path) := by
  have hread := h.read path
  unfold readCells readHeader
  generalize files.read path = found, files'.read path = found' at hread ⊢
  cases hread with
  | error => exact .error rfl
  | @ok bytes bytes' hbytes =>
      rcases hbytes with rfl | haside | ⟨hnote, hnote'⟩
      · exact .of_eq rfl
      · exact absurd haside hpath
      · obtain ⟨fault, hdecode, hkind⟩ := hnote.decode (K := K) (V := V) path.toText
        obtain ⟨fault', hdecode', hkind'⟩ := hnote'.decode (K := K) (V := V) path.toText
        dsimp only
        rw [hdecode, hdecode']
        exact .error (hkind.trans hkind'.symm)

theorem Operand.load_sameButNotes (h : files.SameButNotes aside files')
    {operand : Operand K V S}
    (hpath : ∀ grid path, operand = .grid grid → grid.cells = .onDisk path →
      ¬ aside (files.target path)) :
    Matching Eq (operand.load files) (operand.load files') := by
  cases operand with
  | constant c => exact .ok rfl
  | grid g =>
      refine .bind (Q := Eq) ?_ fun _ _ heq => .ok (congrArg Operand.grid heq)
      unfold Grid.load
      cases hcells : g.cells with
      | resident cells => exact .ok rfl
      | onDisk path =>
          exact .bind (Idf.readCells_sameButNotes h (hpath g path rfl hcells)) fun _ _ heq =>
            .ok (by rw [heq])

/-- The cells of a loaded grid are resident. -/
theorem Operand.ne_onDisk_of_load {operand loaded : Operand K V S} {settings : Settings K V}
    {grid : Grid K V S} (hload : operand.load files = .ok loaded)
    (hvalue : Expression.substituteNodata settings loaded = .grid grid) :
    grid.cells ≠ .onDisk path := by
  cases operand with
  | constant c =>
      cases hload
      cases hvalue
  | grid g =>
      unfold Operand.load at hload
      dsimp only at hload
      cases hloaded : g.load files with
      | error fault =>
          rw [hloaded] at hload
          cases hload
      | ok resident =>
          rw [hloaded] at hload
          cases hload
          obtain ⟨cells, rfl, -⟩ := Grid.load_eq_ok hloaded
          obtain ⟨substitute, hsubstitute⟩ := Expression.exists_substituteNodata_eq settings
            { g with cells := .resident cells }
          cases hsubstitute.symm.trans hvalue
          exact nofun

end Grids

namespace Session

variable {K V S : Type}

/-- Log records go to no file that the cells of a variable still have to be read from. -/
def LogsApart (session : Session K V S) : Prop :=
  ∀ log, session.logFile = some log → ∀ binding ∈ session.table.bindings, ∀ grid path,
    binding.value = .grid grid → grid.cells = .onDisk path →
      session.files.target path ≠ session.files.target log.path

/-- Two sessions with the same variables and the same number, whose files differ in notes only and
in those that are put aside. Records go to such files, and no variable is read from them. -/
structure SameButNotes (aside : Place → Prop) (s t : Session K V S) : Prop where
  table : t.table = s.table
  counter : t.counter = s.counter
  files : s.files.SameButNotes aside t.files
  logs : ∀ log, s.logFile = some log → aside (s.files.target log.path)
  logs' : ∀ log, t.logFile = some log → aside (t.files.target log.path)
  grids : ∀ binding ∈ s.table.bindings, ∀ grid path, binding.value = .grid grid →
    grid.cells = .onDisk path → ¬ aside (s.files.target path)

/-- The place of the file that records go to. -/
def isLog (session : Session K V S) (place : Place) : Prop :=
  ∃ log, session.logFile = some log ∧ place = session.files.target log.path

/-- A record changes no more than the file for records. -/
theorem addRecord_sameButNotes {aside : Place → Prop} {session : Session K V S}
    (hlogs : ∀ log, session.logFile = some log → aside (session.files.target log.path))
    (record : Record) :
    session.files.SameButNotes aside (session.addRecord record).files ∧
      ∀ log, (session.addRecord record).logFile = some log →
        aside ((session.addRecord record).files.target log.path) := by
  unfold addRecord
  dsimp only
  split
  next => exact ⟨.refl _ _, hlogs⟩
  next log hlog =>
    split
    next => exact ⟨.refl _ _, hlogs⟩
    next =>
      have hfiles := FileTree.SameButNotes.of_writeAt (hlogs log hlog) log.offset
        (Bytes.ofText (record.text.toList ++ ['\n']))
      refine ⟨hfiles, fun other hother => ?_⟩
      cases hother
      dsimp only
      rw [FileTree.target_congr hfiles.current]
      exact hlogs log hlog

namespace SameButNotes

variable {aside : Place → Prop} {s t : Session K V S}

theorem refl {session : Session K V S} (h : session.LogsApart) :
    SameButNotes session.isLog session session where
  table := rfl
  counter := rfl
  files := .refl _ _
  logs log hlog := ⟨log, hlog, rfl⟩
  logs' log hlog := ⟨log, hlog, rfl⟩
  grids binding hbinding grid path hvalue hcells := by
    rintro ⟨log, hlog, heq⟩
    exact h log hlog binding hbinding grid path hvalue hcells heq

theorem addRecord (h : SameButNotes aside s t) (record record' : Record) :
    SameButNotes aside (s.addRecord record) (t.addRecord record') := by
  obtain ⟨hfiles, hlogs⟩ := addRecord_sameButNotes h.logs record
  obtain ⟨hfiles', hlogs'⟩ := addRecord_sameButNotes h.logs' record'
  refine ⟨?_, ?_, hfiles.symm.trans (h.files.trans hfiles'), hlogs, hlogs', ?_⟩
  · rw [table_addRecord, table_addRecord, h.table]
  · rw [counter_addRecord, counter_addRecord, h.counter]
  · rw [table_addRecord]
    intro binding hbinding grid path hvalue hcells
    rw [FileTree.target_congr hfiles.current]
    exact h.grids binding hbinding grid path hvalue hcells

theorem nextNumber (h : SameButNotes aside s t) :
    SameButNotes aside { s with counter := s.counter + 1 }
      { t with counter := t.counter + 1 } :=
  { h with counter := congrArg (· + 1) h.counter }

theorem withFiles (h : SameButNotes aside s t) {files files' : FileTree}
    (hfiles : files.SameButNotes aside files') (hcurrent : files.current = s.files.current) :
    SameButNotes aside { s with files } { t with files := files' } where
  table := h.table
  counter := h.counter
  files := hfiles
  logs log hlog := by
    rw [FileTree.target_congr hcurrent]
    exact h.logs log hlog
  logs' log hlog := by
    rw [FileTree.target_congr (hfiles.current.trans (hcurrent.trans h.files.current.symm))]
    exact h.logs' log hlog
  grids binding hbinding grid path hvalue hcells := by
    rw [FileTree.target_congr hcurrent]
    exact h.grids binding hbinding grid path hvalue hcells

variable [Coordinate K] [Number V] [Cell S V]

/-- A loaded value may take the place of the bound one. -/
theorem update (h : SameButNotes aside s t) {operand loaded : Operand K V S}
    (hload : operand.load s.files = .ok loaded) (settings : Settings K V) :
    SameButNotes aside
      { s with table := s.table.update (Expression.substituteNodata settings loaded) }
      { t with table := t.table.update (Expression.substituteNodata settings loaded) } := by
  refine { h with
    table := by rw [h.table]
    grids := fun binding hbinding grid path hvalue hcells => ?_ }
  rcases VariableTable.mem_or_value_of_mem_update hbinding with hold | hnew
  · exact h.grids binding hold grid path hvalue hcells
  · cases Operand.ne_onDisk_of_load hload (hnew.symm.trans hvalue) hcells

/-- A result is recorded in both sessions, whatever is said of it. -/
theorem agree_emit {heed : Fault → Prop} (settings : Settings K V) (id text text' : Text)
    (value : Operand K V S) (h : SameButNotes aside s t) :
    Run.Agree (SameButNotes aside) heed (fun _ _ => True) s t
      (Expression.emit settings id text value) (Expression.emit settings id text' value) := by
  unfold Expression.emit
  refine .ite (fun _ => .bind (.record (h.addRecord _ _)) fun _ _ s t _ h => ?_)
    fun _ => .pure h trivial
  cases value with
  | constant c => exact .record (h.addRecord _ _)
  | grid g =>
      refine .get_bind (.bind (Q := Eq) ?_ fun _ _ _ _ _ h => .record (h.addRecord _ _))
      rw [tracePath_congr settings h.files.current id]
      have hmetadata :
          (if settings.addMetadata then some (Expression.traceMetadata id text') else none).isSome =
          (if settings.addMetadata then some (Expression.traceMetadata id text) else none).isSome :=
        by split <;> rfl
      have hwritten := g.write_sameButNotes h.files (Expression.tracePath settings s.files id)
        hmetadata
      exact .changeFiles hwritten.1 (h.withFiles hwritten.2 (g.current_write _ _))

end SameButNotes

end Session

end MapAlgebra
