import MapAlgebra.Proofs.Settled
import MapAlgebra.Proofs.Single

/-!
# Reading variables again

An assignment gives up the cells of all variables, which are read again from their files when they
are needed. A variable then reads as before unless the assignment wrote other cells to its file.
-/

namespace MapAlgebra

variable {K V S : Type}

/-- The numbers of rows and columns of a grid. -/
def Operand.shape? : Operand K V S → Option (Int × Int)
  | .constant _ => none
  | .grid g => some (g.rows, g.cols)

theorem Operand.Reloaded.shape?_eq {before after : Operand K V S} (h : before.Reloaded after) :
    after.shape? = before.shape? := by
  cases h with
  | constant c => rfl
  | grid hslot hpath hrows hcols =>
      unfold shape?
      dsimp only
      rw [hrows, hcols]

/-- Where the file behind a value is. -/
def Operand.place? (files : FileTree) : Operand K V S → Option Place
  | .constant _ => none
  | .grid g => g.path.bind fun path => (files.place path).toOption

theorem Operand.place?_of_path_eq_some {grid : Grid K V S} {path : Path}
    (h : grid.path = some path) (files : FileTree) :
    (Operand.grid grid).place? files = (files.place path).toOption := by
  unfold place?
  dsimp only
  rw [h, Option.bind_some]

theorem Operand.place?_of_path_eq_none {grid : Grid K V S} (h : grid.path = none)
    (files : FileTree) : (Operand.grid grid).place? files = none := by
  unfold place?
  dsimp only
  rw [h, Option.bind_none]

namespace Script

open Expression Session

variable [Coordinate K] [Number V] [Cell S V]

section Values

variable {before after : FileTree} {value : Operand K V S} {now : Binding K V S}

/-- A grid on disk reads again as it did exactly if no other cells were written to its file. -/
theorem reading_onDisk_iff {writes : List (Place × Raster S)} {grid again : Grid K V S}
    {path : Path} (hfiles : Written K writes before after) (hpath : path.IsGridPath)
    (hread : ∃ bytes, before.read path = .ok bytes) (hcells : grid.cells = .onDisk path)
    (hagain : again.cells = .onDisk path) :
    (Operand.grid again).reading after = (Operand.grid grid).reading before ↔
      ∀ place cells, (before.place path).toOption = some place →
        lastWrite place writes = some cells →
          (Operand.grid grid).reading before = .ok (.inr cells) := by
  rw [Operand.reading_onDisk hagain, Operand.reading_onDisk hcells]
  obtain ⟨bytes, hbytes⟩ := hread
  obtain ⟨place, hplace, -⟩ := FileTree.read_eq_ok_iff.mp hbytes
  have hgrid := hpath.isGridPlace hplace
  rw [hplace]
  -- the file is as it was, or it holds the last cells that were written to it
  cases hlast : lastWrite place writes with
  | none =>
      have hsame := hfiles.read_eq_ok hplace hgrid hlast hbytes
      rw [Idf.readCells_congr (hsame.trans hbytes.symm)]
      refine iff_of_true rfl fun _ _ hother hwritten => ?_
      cases hother
      cases hlast.symm.trans hwritten
  | some cells =>
      obtain ⟨_, -, hcells⟩ := hfiles.exists_read_of_lastWrite
        (hfiles.directories.place_eq_ok hplace) hgrid hlast
      rw [hcells]
      constructor
      · intro hsame _ _ hother hwritten
        cases hother
        cases hlast.symm.trans hwritten
        exact hsame.symm
      · intro hwritten
        exact (hwritten place cells rfl hlast).symm

/-- A stored value reads again as it did exactly if no other cells were written to its file. -/
theorem Stored.reading_released_iff {writes : List (Place × Raster S)} (h : Stored before value)
    (hnow : value.Reloaded now.value) (hfiles : Written K writes before after) :
    (VariableTable.released after now).value.reading after = value.reading before ↔
      ∀ place cells, value.place? before = some place → lastWrite place writes = some cells →
        value.reading before = .ok (.inr cells) := by
  generalize hvalue : now.value = current at hnow
  cases hnow with
  | constant c =>
      rw [value_released_constant hvalue]
      exact iff_of_true rfl fun _ _ hplace => nomatch hplace
  | @grid grid loaded hslot hpath hrows hcols hcells =>
      cases h.readable with
      | resident hnone hresident =>
          -- without a file the cells stay in memory, so nothing is read again
          have hloaded : grid.isLoaded := by
            unfold Grid.isLoaded
            rw [hresident]
          have hkept := (hcells hnone hloaded).trans hresident
          rw [value_released_of_path_eq_none hvalue (hpath.trans hnone),
            Operand.reading_resident hkept, Operand.reading_resident hresident,
            Operand.place?_of_path_eq_none hnone]
          exact iff_of_true rfl fun _ _ hplace => nomatch hplace
      | @behind _ path hsome hgrid hread =>
          rw [value_released_of_exists_read hvalue (hpath.trans hsome)
            (hfiles.exists_read_eq_ok hgrid hread), Operand.place?_of_path_eq_some hsome]
          exact reading_onDisk_iff hfiles hgrid hread (h.onDisk grid path rfl hsome) rfl

theorem shape?_released (files : FileTree) (binding : Binding K V S) :
    (VariableTable.released files binding).value.shape? = binding.value.shape? := by
  rcases VariableTable.value_released_eq_or files binding with
    hsame | ⟨grid, path, hgrid, -, hvalue⟩
  · rw [hsame]
  · rw [hvalue, hgrid]
    rfl

end Values

variable [Conversion K V] {plan : Plan K V} {assignment : Assignment}
  {before after : Session K V S} {binding : Binding K V S}

/-- What an assignment writes for its value: a grid that was computed goes where results go, with
the cells that the variable then has. -/
inductive ResultsOf (plan : Plan K V) (assignment : Assignment) (binding : Binding K V S)
    (after : Session K V S) : List (Place × Raster S) → Prop
  | constant {c : Constant V} (h : binding.value = .constant c) :
      ResultsOf plan assignment binding after []
  | persisted (h : binding.provenance.isPersisted = true) :
      ResultsOf plan assignment binding after []
  | computed {place : Place} {cells : Raster S} (h : binding.provenance.isPersisted = false)
      (hplace : after.files.place (plan.resultPath after.files assignment) = .ok place)
      (hcells : binding.value.reading after.files = .ok (.inr cells)) :
      ResultsOf plan assignment binding after [(place, cells)]

/-- What an assignment writes: with tracing on, the results of parts of its right side under the
numbers they took, and then the result. -/
structure WritesOf (plan : Plan K V) (assignment : Assignment) (binding : Binding K V S)
    (before after : Session K V S) (traced results : List (Place × Raster S)) : Prop where
  traced : ∀ write ∈ traced, plan.settings.traces ∧ ∃ number,
    before.counter < number ∧ number ≤ after.counter ∧
      after.files.place (tracePath plan.settings after.files (expressionId number)) = .ok write.1
  results : ResultsOf plan assignment binding after results

theorem Assigned.resultsOf (assigned : Assigned plan assignment before binding after) :
    ResultsOf plan assignment binding after assigned.results := by
  have hprovenance : binding.provenance = assigned.provenance :=
    congrArg Binding.provenance assigned.binding_eq
  cases assigned.stores with
  | constant howned hsaved hresults =>
      rw [hresults]
      exact .constant (assigned.value_binding_constant hsaved)
  | persisted hpersisted howned hsaved hresults =>
      rw [hresults]
      exact .persisted (hprovenance ▸ hpersisted)
  | computed hcomputed howned hrounded hcells hplace hsaved hresults =>
      obtain ⟨bytes, hread, hreadCells⟩ := assigned.exists_read_result hplace hresults
      rw [hresults]
      refine .computed (hprovenance ▸ hcomputed) (assigned.files_after ▸ hplace) ?_
      rw [assigned.value_binding_of_exists_read hsaved rfl ⟨bytes, hread⟩,
        assigned.files_after, Operand.reading_onDisk rfl, hreadCells]
      rfl

theorem Assigned.writesOf (assigned : Assigned plan assignment before binding after) :
    WritesOf plan assignment binding before after assigned.traced assigned.results where
  results := assigned.resultsOf
  traced write hwrite := by
    obtain ⟨htraces, number, hfrom, hto, hplace⟩ := assigned.advances.traces write hwrite
    have hdirectories := assigned.proceeds.files.directories
    refine ⟨htraces, number, hfrom, ?_, ?_⟩
    · rw [assigned.counter_after]
      exact Nat.le_trans hto assigned.proceeds.counter
    · rw [assigned.files_after, tracePath_congr plan.settings hdirectories.current]
      exact hdirectories.place_eq_ok hplace

/-- After an assignment every other variable has its shape, and reads as before exactly if its file
is none that the assignment wrote, or was given the cells again that the variable read as. -/
theorem reading_executeLine_iff [LawfulCell S] {line : Line} {found : Option (Binding K V S)}
    (hreached : Reached plan before)
    (hstatement : Statement.ofText line.text = .ok (.assign assignment))
    (h : Run.from? before (plan.executeLine line) = (.ok found, after)) :
    ∃ binding traced results, found = some binding ∧
      after.table.get? assignment.name = some binding ∧
      WritesOf plan assignment binding before after traced results ∧
      ∀ name other, VariableTable.key name ≠ VariableTable.key assignment.name →
        before.table.get? name = some other →
          ∃ now, after.table.get? name = some now ∧ now.value.shape? = other.value.shape? ∧
            (now.value.reading after.files = other.value.reading before.files ↔
              ∀ place cells, other.value.place? before.files = some place →
                lastWrite place (traced ++ results) = some cells →
                  other.value.reading before.files = .ok (.inr cells)) := by
  have hsettled := hreached.settled
  obtain ⟨binding, rfl, hassign⟩ := (executeLine_assign_eq_ok hstatement).mp h
  generalize evaluating line = record at hassign
  have hlogged := hsettled.addRecord record
  obtain ⟨assigned⟩ := nonempty_assigned_of_assign_eq_ok hlogged.calm hassign
  have hrecorded : Advances plan.settings 0 [] before (before.addRecord record) :=
    advances_addRecord 0 hsettled.calm.logs record
  have hfiles := hrecorded.files.trans assigned.proceeds_stored.files
  rw [List.nil_append] at hfiles
  have hwrites := assigned.writesOf
  refine ⟨binding, assigned.traced, assigned.results, rfl, assigned.get?_eq_binding, ?_, ?_⟩
  · exact ⟨counter_addRecord before record ▸ hwrites.traced, hwrites.results⟩
  · intro name other hname hother
    have hstored := hsettled.stored other (VariableTable.mem_of_get?_eq_some hother).1
    rw [← table_addRecord before record] at hother
    obtain ⟨now, hnow, hreloaded⟩ := assigned.get?_of_ne hname hother
    refine ⟨_, hnow, (shape?_released _ now).trans hreloaded.value.shape?_eq, ?_⟩
    rw [assigned.files_after]
    exact hstored.reading_released_iff hreloaded.value hfiles

section Overwriting

/-- A grid of one cell that holds five. -/
def five : Grid Float Float Float32 where
  extent := ⟨0, 0, 1, 1⟩
  cellWidth := 1
  cellHeight := 1
  nodata := -9999
  name := Grid.defaultName
  rows := 1
  cols := 1
  cells := .resident (.fill 1 1 5)

/-- A directory with the grid in a file. -/
def oneFile : FileTree where
  current := []
  entries := [(["B.IDF".toList], .file (Idf.encode five (.fill 1 1 5)).1)]

/-- Results go to the directory that files are read from. -/
def plainPlan : Plan Float Float where
  settings := {}

/-- The session once a variable has the file. -/
def loadedSession : Session Float Float Float32 :=
  (Run.from? (start oneFile) (plainPlan.executeLine ⟨1, "A = B.IDF".toList⟩)).2

/-- A variable of the name of the file is to have the opposite of the first one. -/
def negation : Line := ⟨2, "B = -A".toList⟩

def negationAssignment : Assignment := ⟨none, "B".toList, "-A".toList⟩

def negationPrepared : Prepared := ⟨"-A".toList, "-#1#".toList, [("#1#".toList, "A".toList)]⟩

/-- The bits of the first cell of what was read. -/
def firstCell? : Except Fault (Float ⊕ Raster Float32) → Option UInt32
  | .ok (.inr cells) => (cells.get? 0 0).map Float32.toBits
  | _ => none

/-- The bits of the first cell that a variable reads as. -/
def firstCellOf? (name : Text) (session : Session Float Float Float32) : Option UInt32 :=
  (session.table.get? name).bind fun binding => firstCell? (binding.value.reading session.files)

theorem reached_loaded : Reached plainPlan loadedSession := by
  have hsucceeds : Run.succeeds (start oneFile : Session Float Float Float32)
      (plainPlan.executeLine ⟨1, "A = B.IDF".toList⟩) fun _ _ => true := by decide +kernel
  obtain ⟨found, after, hline, -⟩ := Run.exists_of_succeeds hsucceeds
  have hafter : loadedSession = after := congrArg Prod.snd hline
  rw [hafter]
  exact .line (.begin (begun_start oneFile)) hline

theorem ofText_negation : Statement.ofText negation.text = .ok (.assign negationAssignment) := by
  decide +kernel

theorem namesLongestFirst_loaded (record : Record) :
    (loadedSession.addRecord record).table.namesLongestFirst = ["NoData".toList, "A".toList] := by
  have hnames : loadedSession.table.bindings.map (·.name) = ["NoData".toList, "A".toList] := by
    decide +kernel
  unfold VariableTable.namesLongestFirst
  rw [table_addRecord, hnames]
  exact List.mergeSort_of_pairwise (by decide +kernel)

/-- The negation succeeds, and the first variable reads as minus five after it. -/
theorem exists_negation_eq_ok : ∃ found after,
    Run.from? loadedSession (plainPlan.executeLine negation) = (.ok found, after) ∧
      firstCellOf? "A".toList after = some 0xc0a00000 := by
  have hprepare : prepare negationAssignment.expression
      (loadedSession.addRecord (evaluating negation)).table.namesLongestFirst =
        .ok negationPrepared := by
    rw [namesLongestFirst_loaded]
    decide +kernel
  have hname : plainPlan.isFileName (loadedSession.addRecord (evaluating negation)).files
      negationAssignment.expression = false := by decide +kernel
  -- the right side is evaluated by its derivation, which is one name with its sign
  have hspells : (Chain.last (.token negationPrepared.text)).Spells negationPrepared.text :=
    have hplain := List.all_eq_true.mp (by decide : ['#', '1', '#'].all isPlain = true)
    .last (.token ⟨by decide +kernel, true, ['#', '1', '#'], .plain hplain, by decide +kernel⟩)
  have hsucceeds : Run.succeeds (loadedSession.addRecord (evaluating negation))
      (plainPlan.assign negationAssignment)
      fun _ after => firstCellOf? "A".toList after == some 0xc0a00000 := by
    unfold Run.succeeds Plan.assign
    rw [Run.from?_bind, from?_value_of_prepare hname hprepare, evaluate_last _ hspells]
    decide +kernel
  obtain ⟨binding, after, hassign, hcell⟩ := Run.exists_of_succeeds hsucceeds
  have hline := (executeLine_assign_eq_ok ofText_negation).mpr ⟨binding, rfl, hassign⟩
  exact ⟨some binding, after, hline, beq_iff_eq.mp hcell⟩

theorem reading_executeLine_negation : ∃ found after,
    Reached plainPlan loadedSession ∧
      Statement.ofText negation.text = .ok (.assign negationAssignment) ∧
      Run.from? loadedSession (plainPlan.executeLine negation) = (.ok found, after) ∧
      ∃ binding traced results, found = some binding ∧
        after.table.get? negationAssignment.name = some binding ∧
        WritesOf plainPlan negationAssignment binding loadedSession after traced results ∧
        ∀ name other, VariableTable.key name ≠ VariableTable.key negationAssignment.name →
          loadedSession.table.get? name = some other →
            ∃ now, after.table.get? name = some now ∧ now.value.shape? = other.value.shape? ∧
              (now.value.reading after.files = other.value.reading loadedSession.files ↔
                ∀ place cells, other.value.place? loadedSession.files = some place →
                  lastWrite place (traced ++ results) = some cells →
                    other.value.reading loadedSession.files = .ok (.inr cells)) := by
  obtain ⟨found, after, hline, -⟩ := exists_negation_eq_ok
  exact ⟨found, after, reached_loaded, ofText_negation, hline,
    reading_executeLine_iff reached_loaded ofText_negation hline⟩

/-- The opposite of a variable goes to the file behind the variable, which then reads as its
opposite. -/
theorem reading_changes_in_negation : ∃ found after,
    Reached plainPlan loadedSession ∧ plainPlan.settings.roundResults = false ∧
      Statement.ofText negation.text = .ok (.assign negationAssignment) ∧
      Run.from? loadedSession (plainPlan.executeLine negation) = (.ok found, after) ∧
      ¬ ∀ name other, VariableTable.key name ≠ VariableTable.key negationAssignment.name →
        loadedSession.table.get? name = some other →
          ∃ now, after.table.get? name = some now ∧
            now.value.reading after.files = other.value.reading loadedSession.files := by
  obtain ⟨found, after, hline, hafter⟩ := exists_negation_eq_ok
  refine ⟨found, after, reached_loaded, rfl, ofText_negation, hline, fun hclaim => ?_⟩
  have hbefore : firstCellOf? "A".toList loadedSession = some 0x40a00000 := by decide +kernel
  have hbound : (loadedSession.table.get? "A".toList).isSome := by decide +kernel
  have hother : VariableTable.key "A".toList ≠ VariableTable.key negationAssignment.name := by
    decide +kernel
  obtain ⟨other, hget⟩ := Option.isSome_iff_exists.mp hbound
  obtain ⟨now, hnow, hreading⟩ := hclaim _ other hother hget
  unfold firstCellOf? at hbefore hafter
  rw [hget, Option.bind_some] at hbefore
  rw [hnow, Option.bind_some, hreading, hbefore] at hafter
  cases hafter

end Overwriting

end Script

end MapAlgebra
