import MapAlgebra.Proofs.Rereading
import MapAlgebra.Proofs.Shapes

/-!
# The files behind variables

A variable that is no constant has a file that holds the cells its assignment evaluated to: the file
that was read when the right side only names it, and else the file of the result. A file with a
minus sign in front of its name escapes this: the opposite counts as the file and is not written.
-/

namespace MapAlgebra

variable {K V S : Type}

namespace Script

open Expression Session

variable [Coordinate K] [Number V] [Cell S V] {plan : Plan K V} {grid other : Grid K V S}

/-- The cells that are written for a computed grid. -/
def resultCells (plan : Plan K V) (grid : Grid K V S) : Except Fault (Raster S) := do
  (← rounded plan grid).values

omit [Coordinate K] in
/-- What is written depends on the cells and on what marks those without data. -/
theorem resultCells_congr (hvalues : other.values = grid.values)
    (hnodata : other.nodata = grid.nodata) : resultCells plan other = resultCells plan grid := by
  unfold resultCells rounded
  split
  next =>
    unfold Grid.roundTo
    rw [hvalues, hnodata]
    cases grid.values with
    | error fault => rfl
    | ok cells => cases Number.decimalsFit V plan.settings.decimals <;> rfl
  next => exact hvalues

omit [Coordinate K] in
theorem exists_resident_of_resultCells_eq_ok {cells : Raster S}
    (h : resultCells plan grid = .ok cells) : ∃ own, grid.cells = .resident own := by
  cases hvalues : grid.values with
  | ok own => exact ⟨own, Grid.values_eq_ok_iff.mp hvalues⟩
  | error fault =>
      unfold resultCells rounded Grid.roundTo at h
      rw [hvalues] at h
      split at h
      next => cases h
      next => cases hvalues.symm.trans h

omit [Coordinate K] in
theorem resultCells_copy {name : Text} (h : grid.copy name = .ok other) :
    resultCells plan other = resultCells plan grid := by
  cases hvalues : grid.values with
  | error fault =>
      unfold Grid.copy at h
      rw [hvalues] at h
      cases h
  | ok cells =>
      unfold Grid.copy at h
      rw [hvalues] at h
      cases h
      exact resultCells_congr hvalues.symm rfl

/-- The file behind a variable holds what the right side evaluated to: the result that was written
for it, or the file that it names. -/
inductive Backed (plan : Plan K V) (assignment : Assignment) (provenance : Provenance)
    (grid : Grid K V S) (evaluated after : FileTree) (bound : Grid K V S) : Prop
  | written {cells : Raster S} (h : provenance.isPersisted = false)
      (hcells : resultCells plan grid = .ok cells)
      (hpath : bound.path = some (plan.resultPath after assignment))
      (hread : Idf.readCells (K := K) after (plan.resultPath after assignment) = .ok cells)
  | read {name : Text} {cells : Raster S} (h : provenance.isPersisted = true)
      (hcells : (Operand.grid grid).reading evaluated = .ok (.inr cells))
      (hpath : bound.path = some (plan.settings.resolveInput name))
      (hread : Idf.readCells (K := K) after (plan.settings.resolveInput name) = .ok cells)

variable [Conversion K V] {assignment : Assignment} {before after : Session K V S}
  {binding : Binding K V S}

omit [Conversion K V] in
theorem isConstant_released (files : FileTree) (binding : Binding K V S) :
    (VariableTable.released files binding).value.isConstant = binding.value.isConstant := by
  rcases VariableTable.value_released_eq_or files binding with
    hsame | ⟨grid, path, hgrid, -, hvalue⟩
  · rw [hsame]
  · rw [hvalue, hgrid]
    rfl

namespace Assigned

variable (assigned : Assigned plan assignment before binding after)

theorem resultCells_owned (hvalue : assigned.value = .grid grid)
    (howned : assigned.owned = .grid other) : resultCells plan other = resultCells plan grid := by
  have hor := assigned.owned_eq
  rw [hvalue, howned] at hor
  rcases hor with ⟨-, hsame⟩ | ⟨-, hcopy⟩
  · cases hsame
    rfl
  · unfold Operand.copy at hcopy
    dsimp only at hcopy
    cases hcopied : grid.copy assignment.name with
    | error fault =>
        rw [hcopied] at hcopy
        cases hcopy
    | ok copied =>
        rw [hcopied] at hcopy
        cases hcopy
        exact resultCells_copy hcopied

theorem isConstant_owned : assigned.owned.isConstant = assigned.value.isConstant := by
  rcases assigned.owned_eq with ⟨-, hsame⟩ | ⟨-, hcopy⟩
  · rw [hsame]
  · exact Operand.isConstant_copy _ _ _ hcopy

theorem isConstant_binding : binding.value.isConstant = assigned.value.isConstant := by
  have hsaved : assigned.saved.isConstant = assigned.owned.isConstant := by
    cases assigned.stores with
    | constant howned hsaved => rw [howned, hsaved]
    | persisted _ howned hsaved => rw [howned, hsaved]
    | computed _ howned _ _ _ hsaved =>
        rw [howned, hsaved]
        rfl
  rw [congrArg Binding.value assigned.binding_eq, isConstant_released, assigned.value_kept,
    ← assigned.isConstant_owned, ← hsaved]
  cases assigned.saved <;> rfl

/-- A grid that counts as computed is written and has the file of the result. -/
theorem backed_of_computed (hvalue : assigned.value = .grid grid)
    (hcomputed : assigned.provenance.isPersisted = false) {bound : Grid K V S}
    (hbound : binding.value = .grid bound) :
    Backed plan assignment assigned.provenance grid assigned.evaluated.files after.files bound ∧
      ∃ cells, (Operand.grid grid).reading assigned.evaluated.files = .ok (.inr cells) := by
  cases assigned.stores with
  | constant howned =>
      have hconstant := assigned.isConstant_owned
      rw [howned, hvalue] at hconstant
      cases hconstant
  | persisted hpersisted =>
      rw [hcomputed] at hpersisted
      cases hpersisted
  | @computed owned output place cells _ howned hrounded hcells hplace hsaved hresults =>
      -- a copy is written with the cells of the value, so these are what is expected
      have hwritten : resultCells plan grid = .ok cells := by
        rw [← assigned.resultCells_owned hvalue howned]
        unfold resultCells
        rw [hrounded]
        exact hcells
      obtain ⟨bytes, hread, hreadCells⟩ := assigned.exists_read_result hplace hresults
      cases hbound.symm.trans (assigned.value_binding_of_exists_read hsaved rfl ⟨bytes, hread⟩)
      rw [assigned.files_after]
      obtain ⟨own, hown⟩ := exists_resident_of_resultCells_eq_ok hwritten
      exact ⟨.written hcomputed hwritten rfl hreadCells, own, Operand.reading_resident hown⟩

/-- A grid that was read from a file has the file, which still holds what it reads as. -/
theorem backed_of_loaded (hpersisted : assigned.provenance.isPersisted = true)
    (hsaved : assigned.saved = .grid grid) (hresults : assigned.results = []) {name : Text}
    (hsuffix : Text.endsCaseless idfSuffix name)
    (hpath : grid.path = some (plan.settings.resolveInput name))
    (hexists : ∃ bytes,
      assigned.evaluated.files.read (plan.settings.resolveInput name) = .ok bytes)
    {cells : Raster S} (hstored : Idf.readCells (K := K) assigned.evaluated.files
      (plan.settings.resolveInput name) = .ok cells)
    (hcells : (Operand.grid grid).reading assigned.evaluated.files = .ok (.inr cells))
    {bound : Grid K V S} (hbound : binding.value = .grid bound) :
    Backed plan assignment assigned.provenance grid assigned.evaluated.files after.files bound := by
  -- nothing is written once the right side has its value, so the file reads as then
  have hfiles : Written (S := S) K [] assigned.evaluated.files assigned.stored.files :=
    hresults ▸ assigned.proceeds.files
  have hgrid := Path.isGridPath_resolveInput plan.settings hsuffix
  cases hbound.symm.trans (assigned.value_binding_of_exists_read hsaved hpath
    (hfiles.exists_read_eq_ok hgrid hexists))
  refine .read hpersisted hcells hpath ?_
  rw [assigned.files_after, Idf.readCells_congr (hfiles.read_eq hgrid hexists), hstored]

/-- A grid that counts as one from a file has the file when it was read from it, and no file when a
minus sign made it. -/
theorem backed_iff_of_persisted (hcalm : before.Calm) (hvalue : assigned.value = .grid grid)
    (hpersisted : assigned.provenance.isPersisted = true) {bound : Grid K V S}
    (hbound : binding.value = .grid bound) :
    Backed plan assignment assigned.provenance grid assigned.evaluated.files after.files bound ↔
      ¬ NegatesFile plan before assignment.expression ∧
        ∃ cells, (Operand.grid grid).reading assigned.evaluated.files = .ok (.inr cells) := by
  -- a grid that is backed has a path, and the value can be read
  have hread (hbacked : Backed plan assignment assigned.provenance grid assigned.evaluated.files
      after.files bound) : bound.path ≠ none ∧
        ∃ cells, (Operand.grid grid).reading assigned.evaluated.files = .ok (.inr cells) := by
    cases hbacked with
    | written hcomputed =>
        rw [hpersisted] at hcomputed
        cases hcomputed
    | read _ hcells hpath => exact ⟨hpath ▸ Option.some_ne_none _, _, hcells⟩
  cases assigned.stores with
  | constant howned =>
      have hconstant := assigned.isConstant_owned
      rw [howned, hvalue] at hconstant
      cases hconstant
  | computed hcomputed =>
      rw [hpersisted] at hcomputed
      cases hcomputed
  | persisted _ howned hsaved hresults =>
      obtain ⟨hsame, hfile⟩ := assigned.fromFile_of_persisted hcalm hpersisted howned
      cases hvalue.symm.trans hsame
      cases hfile with
      | negated hnegates hnew =>
          cases hbound.symm.trans (assigned.value_binding_of_path_eq_none hsaved hnew.path)
          constructor
          · intro hbacked
            exact absurd hnew.path (hread hbacked).1
          · rintro ⟨hplain, -⟩
            exact absurd hnegates hplain
      | @loaded name hplain hsuffix hpath _ hexists hreading =>
          constructor
          · intro hbacked
            exact ⟨hplain, (hread hbacked).2⟩
          · rintro ⟨-, cells, hcells⟩
            cases hstored : Idf.readCells (K := K) assigned.evaluated.files
                (plan.settings.resolveInput name) (S := S) with
            | error fault =>
                rw [hreading, hstored] at hcells
                cases hcells
            | ok own =>
                rw [hstored] at hreading
                cases hreading.symm.trans hcells
                exact assigned.backed_of_loaded hpersisted hsaved hresults hsuffix hpath hexists
                  hstored hcells hbound

end Assigned

/-- The variable of an assignment is a constant when the value of the right side is one. A grid has
a file behind it that holds what the right side evaluated to exactly if that can be read and is not
a file with a minus sign in front of it. -/
theorem backed_assign_iff [LawfulCell S] (hreached : Reached plan before)
    (h : Run.from? before (plan.assign assignment) = (.ok binding, after)) :
    ∃ value provenance evaluated,
      Run.from? before (plan.value assignment.expression) = (.ok (value, provenance), evaluated) ∧
      after.table.get? assignment.name = some binding ∧
      binding.value.isConstant = value.isConstant ∧
      ∀ grid bound, value = .grid grid → binding.value = .grid bound →
        (Backed plan assignment provenance grid evaluated.files after.files bound ↔
          ¬ NegatesFile plan before assignment.expression ∧
            ∃ cells, (Operand.grid grid).reading evaluated.files = .ok (.inr cells)) := by
  have hcalm := hreached.settled.calm
  obtain ⟨assigned⟩ := nonempty_assigned_of_assign_eq_ok hcalm h
  refine ⟨assigned.value, assigned.provenance, assigned.evaluated, assigned.evaluates,
    assigned.get?_eq_binding, assigned.isConstant_binding, fun grid bound hvalue hbound => ?_⟩
  rcases assigned.fromFile_or hcalm hvalue with ⟨hpersisted, -⟩ | ⟨hcomputed, hplain⟩
  · exact assigned.backed_iff_of_persisted hcalm hvalue hpersisted hbound
  · obtain ⟨hbacked, hreading⟩ := assigned.backed_of_computed hvalue hcomputed hbound
    exact iff_of_true hbacked ⟨hplain, hreading⟩

theorem backed_assign_negation : ∃ binding after,
    Reached plainPlan (loadedSession.addRecord (evaluating negation)) ∧
      Run.from? (loadedSession.addRecord (evaluating negation))
        (plainPlan.assign negationAssignment) = (.ok binding, after) ∧
      ∃ value provenance evaluated,
        Run.from? (loadedSession.addRecord (evaluating negation))
          (plainPlan.value negationAssignment.expression) = (.ok (value, provenance), evaluated) ∧
        after.table.get? negationAssignment.name = some binding ∧
        binding.value.isConstant = value.isConstant ∧
        ∀ grid bound, value = .grid grid → binding.value = .grid bound →
          (Backed plainPlan negationAssignment provenance grid evaluated.files after.files bound ↔
            ¬ NegatesFile plainPlan (loadedSession.addRecord (evaluating negation))
                negationAssignment.expression ∧
              ∃ cells, (Operand.grid grid).reading evaluated.files = .ok (.inr cells)) := by
  obtain ⟨found, after, hline, -⟩ := exists_negation_eq_ok
  obtain ⟨binding, -, hassign⟩ := (executeLine_assign_eq_ok ofText_negation).mp hline
  have hreached := reached_loaded.record (evaluating negation)
  exact ⟨binding, after, hreached, hassign, backed_assign_iff hreached hassign⟩

/-- A variable is to have the opposite of a file. -/
def oppositeAssignment : Assignment := ⟨none, "A".toList, "-(B.IDF)".toList⟩

def oppositePrepared : Prepared where
  source := "-(B.IDF)".toList
  text := minus true ++ '(' :: ("B.IDF".toList ++ [')'])

/-- The opposite of a file is neither written nor has it a file. -/
theorem opposite_has_no_file : ∃ (binding : Binding Float Float Float32)
    (bound : Grid Float Float Float32) (after : Session Float Float Float32),
    Reached plainPlan (start oneFile : Session Float Float Float32) ∧
      Run.from? (start oneFile) (plainPlan.assign oppositeAssignment) = (.ok binding, after) ∧
      binding.value = .grid bound ∧ ¬ ∃ path, bound.path = some path := by
  have hprepare : prepare oppositeAssignment.expression
      (start oneFile : Session Float Float Float32).table.namesLongestFirst =
        .ok oppositePrepared := by
    have hnames : (start oneFile : Session Float Float Float32).table.namesLongestFirst =
        ["NoData".toList] := List.mergeSort_of_pairwise (List.pairwise_singleton _ _)
    rw [hnames]
    decide +kernel
  have hname : plainPlan.isFileName (start oneFile : Session Float Float Float32).files
      oppositeAssignment.expression = false := by decide +kernel
  have hspells : (Chain.last (.group true (.last (.token "B.IDF".toList)))).Spells
      oppositePrepared.text :=
    have hplain := List.all_eq_true.mp (by decide : "B.IDF".toList.all isPlain = true)
    .last (.group (.last (.token ⟨by decide, false, "B.IDF".toList, .plain hplain, rfl⟩)))
  have hsucceeds : Run.succeeds (start oneFile : Session Float Float Float32)
      (plainPlan.assign oppositeAssignment) fun binding _ =>
        match binding.value with
        | .grid bound => bound.path.isNone
        | .constant _ => false := by
    unfold Run.succeeds Plan.assign
    rw [Run.from?_bind, from?_value_of_prepare hname hprepare, evaluate_last _ hspells]
    simp only [Scope.evaluateTerm_group_last]
    decide +kernel
  obtain ⟨binding, after, hassign, hpath⟩ := Run.exists_of_succeeds hsucceeds
  cases hvalue : binding.value with
  | constant c =>
      rw [hvalue] at hpath
      cases hpath
  | grid bound =>
      rw [hvalue] at hpath
      refine ⟨binding, bound, after, .begin (begun_start oneFile), hassign, hvalue, ?_⟩
      rintro ⟨path, hsome⟩
      dsimp only at hpath
      rw [hsome] at hpath
      cases hpath

end Script

end MapAlgebra
