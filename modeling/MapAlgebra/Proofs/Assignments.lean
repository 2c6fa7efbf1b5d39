import MapAlgebra.Proofs.Alone
import MapAlgebra.Script.Interpreter

/-!
# Assignments

An assignment evaluates its right side, writes what was computed, binds it and gives up the cells of
all grids that can be read again.
-/

namespace MapAlgebra

variable {K V S : Type}

namespace Operand

variable [Coordinate K] [Number V] [Cell S V]

/-- What a bound value reads as: the number of a constant, or the cells of a grid, which are read
from its file when they are not resident. -/
def reading (files : FileTree) : Operand K V S → Except Fault (V ⊕ Raster S)
  | .constant c => .ok (.inl c.value)
  | .grid g => do return .inr (← (← g.load files).values)

theorem reading_resident {files : FileTree} {grid : Grid K V S} {cells : Raster S}
    (h : grid.cells = .resident cells) :
    (Operand.grid grid).reading files = .ok (.inr cells) := by
  cases grid
  cases h
  rfl

theorem reading_onDisk {files : FileTree} {grid : Grid K V S} {path : Path}
    (h : grid.cells = .onDisk path) :
    (Operand.grid grid).reading files = (Idf.readCells (K := K) files path).map .inr := by
  cases grid
  cases h
  unfold reading Grid.load
  dsimp only
  cases Idf.readCells (K := K) files path (S := S) with
  | error fault => rfl
  | ok cells => rfl

end Operand

theorem Idf.readCells_congr [Coordinate K] [Number V] [Cell S V] {before after : FileTree}
    {path : Path} (h : after.read path = before.read path) :
    (readCells (K := K) after path : Except Fault (Raster S)) = readCells (K := K) before path := by
  unfold readCells readHeader
  rw [h]

namespace Script

open Expression Session

variable [Coordinate K] [Number V] [Cell S V] [Conversion K V]
variable {plan : Plan K V} {assignment : Assignment} {session after : Session K V S}

/-- The binding that an assignment makes of a value. -/
def newBinding (assignment : Assignment) (provenance : Provenance) (value : Operand K V S)
    (metadata : Option Metadata) : Binding K V S where
  name := assignment.name
  value
  provenance
  folder := assignment.folder
  metadata
  isPersisted := true

/-- A session in which a binding is made and the cells of all grids are given up that can be read
again. -/
def bound (session : Session K V S) (binding : Binding K V S) : Session K V S :=
  { session with table := ((session.table.bind binding).releaseAll session.files).1 }

omit [Conversion K V] in
theorem get?_bound (session : Session K V S) (binding : Binding K V S) (name : Text) :
    (bound session binding).table.get? name =
      if VariableTable.key name = VariableTable.key binding.name then
        some (VariableTable.released session.files (session.table.kept binding))
      else (session.table.get? name).map (VariableTable.released session.files) := by
  unfold bound
  rw [VariableTable.get?_releaseAll, VariableTable.get?_bind]
  split <;> rfl

omit [Coordinate K] [Number V] [Cell S V] [Conversion K V] in
theorem resultPath_congr (plan : Plan K V) {before after : FileTree}
    (h : after.current = before.current) (assignment : Assignment) :
    plan.resultPath after assignment = plan.resultPath before assignment := by
  unfold Plan.resultPath Settings.outputDirectory FileTree.currentPath
  rw [h]

omit [Coordinate K] [Number V] [Cell S V] [Conversion K V] in
theorem isGridPath_resultPath (plan : Plan K V) (files : FileTree) (assignment : Assignment) :
    (plan.resultPath files assignment).IsGridPath := by
  unfold Plan.resultPath
  exact Path.isGridPath_join_idf _ [] assignment.name

/-- The grid whose cells are written for a computed one. -/
def rounded (plan : Plan K V) (grid : Grid K V S) : Except Fault (Grid K V S) :=
  if plan.settings.roundResults then grid.roundTo plan.settings.decimals else .ok grid

omit [Conversion K V] in
/-- Saving a grid writes it, rounded if the settings say so, to the path of the result. -/
theorem exists_proceeds_of_save_eq_ok [LawfulCell S] (hlogs : session.LogsElsewhere)
    {grid saved : Grid K V S} {metadata : Option Metadata}
    (h : Run.from? session (plan.save assignment grid) = (.ok (saved, metadata), after)) :
    ∃ output place cells, rounded plan grid = .ok output ∧ output.values = .ok cells ∧
      after.files.place (plan.resultPath after.files assignment) = .ok place ∧
      Proceeds [(place, cells)] session after ∧
      saved = { grid with
        path := some (plan.resultPath after.files assignment), name := assignment.name } := by
  unfold Plan.save at h
  obtain ⟨_, _, hget, hrounding⟩ := Run.from?_bind_eq_ok.mp h
  obtain ⟨rfl, rfl⟩ := Run.from?_pure_eq_ok.mp hget
  obtain ⟨output, _, hlift, hwriting⟩ := Run.from?_bind_eq_ok.mp hrounding
  obtain ⟨hround, rfl⟩ := Run.from?_liftExcept_eq_ok.mp hlift
  obtain ⟨_, written, hwrite, hlogging⟩ := Run.from?_bind_eq_ok.mp hwriting
  obtain ⟨_, logged, hlog, hreturn⟩ := Run.from?_bind_eq_ok.mp hlogging
  obtain ⟨heq, rfl⟩ := Run.from?_pure_eq_ok.mp hreturn
  obtain ⟨rfl, -⟩ := Prod.mk.inj heq
  obtain ⟨place, cells, hcells, hplace, hwritten⟩ := exists_proceeds_of_write_eq_ok hwrite
  have hlogged : Advances plan.settings 0 [] written logged :=
    advances_of_record_eq_ok 0 (hlogs.of_map_path hwritten.log) hlog
  have hall := hwritten.trans hlogged.toProceeds
  have hpath := resultPath_congr plan hall.files.directories.current assignment
  refine ⟨output, place, cells, hround, hcells, ?_, hall, by rw [hpath]⟩
  rw [hpath]
  exact hlogged.files.directories.place_eq_ok hplace

omit [Cell S V] [Conversion K V] in
theorem exists_isOpened_of_openFile_eq_ok {name : Text} {value : Operand K V S}
    (h : Run.from? session (plan.openFile name) = (.ok value, after)) :
    ∃ (opened : Grid K V S) (records : List Record), value = .grid opened ∧
      opened.IsOpened session.files (plan.settings.resolveInput name) ∧
      after = records.foldl addRecord session := by
  unfold Plan.openFile at h
  obtain ⟨_, _, hget, hopening⟩ := Run.from?_bind_eq_ok.mp h
  obtain ⟨rfl, rfl⟩ := Run.from?_pure_eq_ok.mp hget
  dsimp only at hopening
  split at hopening
  next => split at hopening <;> cases hopening
  next =>
    obtain ⟨opened, _, hreading, hreturn⟩ := Run.from?_bind_eq_ok.mp hopening
    obtain ⟨rfl, rfl⟩ := Run.from?_pure_eq_ok.mp hreturn
    obtain ⟨hread, rfl⟩ := Run.from?_traced_eq_ok.mp hreading
    exact ⟨opened, _, rfl, Grid.isOpened_read _ _ [] opened hread, rfl⟩

/-- The right side of an assignment is the name of a file, which is opened, or an expression. -/
theorem value_eq_ok {expression : Text} {value : Operand K V S} {provenance : Provenance}
    (h : Run.from? session (plan.value expression) = (.ok (value, provenance), after)) :
    (plan.isFileName session.files expression = true ∧ provenance = .file ∧
      ∃ (opened : Grid K V S) (records : List Record), value = .grid opened ∧
        opened.IsOpened session.files (plan.settings.resolveInput expression) ∧
        after = records.foldl addRecord session) ∨
    (plan.isFileName session.files expression = false ∧
      Run.from? session (parse plan.settings expression) = (.ok (value, provenance), after)) := by
  unfold Plan.value at h
  obtain ⟨_, _, hget, hdeciding⟩ := Run.from?_bind_eq_ok.mp h
  obtain ⟨rfl, rfl⟩ := Run.from?_pure_eq_ok.mp hget
  split at hdeciding
  next hname =>
    obtain ⟨found, opened, hopen, hreturn⟩ := Run.from?_bind_eq_ok.mp hdeciding
    obtain ⟨heq, rfl⟩ := Run.from?_pure_eq_ok.mp hreturn
    obtain ⟨rfl, rfl⟩ := Prod.mk.inj heq
    exact .inl ⟨hname, rfl, exists_isOpened_of_openFile_eq_ok hopen⟩
  next hname => exact .inr ⟨by simpa using hname, hdeciding⟩

/-- What is not the name of a file is evaluated as an expression. -/
theorem from?_value_of_prepare {expression : Text} {prepared : Prepared}
    (hname : plan.isFileName session.files expression = false)
    (hprepare : prepare expression session.table.namesLongestFirst = .ok prepared) :
    Run.from? session (plan.value expression) =
      Run.from? session (evaluate plan.settings prepared) := by
  unfold Plan.value
  rw [Run.from?_bind, Run.from?_get]
  dsimp only
  rw [if_neg (by simp [hname])]
  exact from?_parse_of_prepare hprepare

/-- The right side of an assignment moves the session, whether it has a value or not. -/
theorem leads_value (expression : Text) :
    Run.Leads (Moves plan.settings) (fun found after => after.Knows found.1.slot) Fault.IsBare
      session (plan.value expression : Run K V S (Operand K V S × Provenance)) := by
  have hopen : Run.Leads (Moves plan.settings) (fun value _ => value.slot = none) Fault.IsBare
      session (plan.openFile expression : Run K V S (Operand K V S)) := by
    unfold Plan.openFile
    refine .get_bind ?_
    dsimp only
    refine .ite (fun _ => .ite (fun _ => .throw trivial) fun _ => .throw trivial) fun _ => ?_
    exact .bind (Run.leads_traced ((Grid.fails_read _ _).mono fun _ h => h.isBare)
      (Grid.isOpened_read _ _)) fun _ _ _ hopened => .pure hopened.slot
  unfold Plan.value
  refine .get_bind (.ite (fun _ => ?_) fun _ => leads_parse expression)
  exact .bind hopen fun _ _ _ hslot => .pure (.inl hslot)

theorem exists_advances_of_value_eq_ok [LawfulCell S] (hcalm : session.Calm) {expression : Text}
    {value : Operand K V S} {provenance : Provenance}
    (h : Run.from? session (plan.value expression) = (.ok (value, provenance), after)) :
    ∃ writes, Advances plan.settings (session.counter + 1) writes session after := by
  rcases value_eq_ok h with ⟨-, -, opened, records, rfl, hopened, rfl⟩ | ⟨-, hparse⟩
  · exact ⟨[], advances_addRecords _ hcalm.logs records⟩
  · exact exists_advances_of_parse_eq_ok hcalm hparse

/-- The right side is the name of a file with a minus sign in front of it, in parentheses or not. -/
def NegatesFile (plan : Plan K V) (session : Session K V S) (expression : Text) : Prop :=
  plan.isFileName session.files expression = false ∧
    ∃ (prepared : Prepared) (chain : Chain) (name : Text),
      prepare expression session.table.namesLongestFirst = .ok prepared ∧
      chain.Spells prepared.text ∧ chain.alone? = some (true, name) ∧
      prepared.name? name = none ∧ Text.endsCaseless idfSuffix name

/-- A grid that counts as one from a file: it is new when a minus sign stands in front of the name,
and reads as the file otherwise. -/
inductive FromFile (plan : Plan K V) (session : Session K V S) (expression : Text)
    (grid : Grid K V S) (files : FileTree) : Prop
  | negated (h : NegatesFile plan session expression) (hnew : grid.IsNew)
  | loaded {name : Text} (h : ¬ NegatesFile plan session expression)
      (hsuffix : Text.endsCaseless idfSuffix name)
      (hpath : grid.path = some (plan.settings.resolveInput name)) (hslot : grid.slot = none)
      (hread : ∃ bytes, files.read (plan.settings.resolveInput name) = .ok bytes)
      (hreading : (Operand.grid grid).reading files =
        (Idf.readCells (K := K) files (plan.settings.resolveInput name)).map .inr)

omit [Coordinate K] [Number V] [Conversion K V] in
theorem endsCaseless_of_isFileName {files : FileTree} {expression : Text}
    (h : plan.isFileName files expression = true) : Text.endsCaseless idfSuffix expression := by
  unfold Plan.isFileName at h
  rw [Bool.and_eq_true] at h
  exact h.1

omit [Conversion K V] in
theorem fromFile_of_isOpened (hlogs : session.LogsElsewhere) {expression : Text}
    {opened : Grid K V S} (hname : plan.isFileName session.files expression = true)
    (hopened : opened.IsOpened session.files (plan.settings.resolveInput expression))
    (records : List Record) :
    FromFile plan session expression opened (records.foldl addRecord session).files := by
  have hsuffix := endsCaseless_of_isFileName hname
  have hlogged : Advances plan.settings 0 [] session _ := advances_addRecords 0 hlogs records
  refine .loaded ?_ hsuffix hopened.behind hopened.slot ?_ (Operand.reading_onDisk hopened.onDisk)
  · rintro ⟨hother, -⟩
    rw [hname] at hother
    cases hother
  · exact hlogged.files.exists_read_eq_ok (Path.isGridPath_resolveInput plan.settings hsuffix)
      hopened.exists_read

omit [Conversion K V] in
/-- A grid that is loaded from a file reads as the file, whether or not NoData cells take part in
calculations. -/
theorem fromFile_of_load (hlogs : session.LogsElsewhere) {expression name : Text}
    {opened loaded grid : Grid K V S} (hplain : ¬ NegatesFile plan session expression)
    (hsuffix : Text.endsCaseless idfSuffix name)
    (hopened : opened.IsOpened session.files (plan.settings.resolveInput name))
    (hload : opened.load session.files = .ok loaded)
    (hgrid : Operand.grid grid = substituteNodata plan.settings (.grid loaded))
    (records : List Record) :
    FromFile plan session expression grid (records.foldl addRecord session).files := by
  have hlogged : Advances plan.settings 0 [] session _ := advances_addRecords 0 hlogs records
  -- the records go elsewhere, so the file still reads as it did when the grid was loaded
  have hfile := hlogged.files.read_eq (Path.isGridPath_resolveInput plan.settings hsuffix)
    hopened.exists_read
  obtain ⟨cells, rfl, hcells⟩ := Grid.load_eq_ok hload
  obtain ⟨substitute, hsubstitute⟩ := exists_substituteNodata_eq plan.settings
    { opened with cells := .resident cells }
  cases hgrid.trans hsubstitute
  have hstored : Idf.readCells (K := K) session.files (plan.settings.resolveInput name) =
      .ok cells := by
    rcases hcells with hresident | ⟨path, hdisk, hstored⟩
    · cases hopened.onDisk.symm.trans hresident
    · cases hopened.onDisk.symm.trans hdisk
      exact hstored
  refine .loaded hplain hsuffix hopened.behind hopened.slot (hfile ▸ hopened.exists_read) ?_
  rw [Idf.readCells_congr hfile, hstored]
  exact Operand.reading_resident rfl

/-- A grid either counts as one from a file and comes from one, or it is written, and then its
expression is no file with a minus sign. -/
theorem fromFile_or_of_parse_eq_ok (hlogs : session.LogsElsewhere) {expression : Text}
    {grid : Grid K V S} {provenance : Provenance}
    (hname : plan.isFileName session.files expression = false)
    (h : Run.from? session (parse plan.settings expression) =
      (.ok (.grid grid, provenance), after)) :
    provenance.isPersisted = true ∧ FromFile plan session expression grid after.files ∨
      provenance.isPersisted = false ∧ ¬ NegatesFile plan session expression := by
  obtain ⟨prepared, chain, part, hprepare, hspells, -, hmeans, hvalue, hprovenance⟩ :=
    exists_means_of_parse_eq_ok h
  have hpart : provenance = part.provenance := hprovenance
  -- a text has one derivation, so what it negates is known from this one
  have hnegates (hnegates : NegatesFile plan session expression) : ∃ name,
      chain.alone? = some (true, name) ∧ prepared.name? name = none := by
    obtain ⟨-, prepared', chain', name, hprepare', hspells', hminus, hfree, -⟩ := hnegates
    cases hprepare'.symm.trans hprepare
    cases hspells'.unique hspells
    exact ⟨name, hminus, hfree⟩
  rw [hpart]
  cases hmeans.cameAbout with
  | constant hconstant => cases hvalue.trans hconstant
  | computed halone hcomputed =>
      refine .inr ⟨hcomputed, fun hminus => ?_⟩
      obtain ⟨name, hminus, -⟩ := hnegates hminus
      cases halone.symm.trans hminus
  | @named minus name base between halone hbase hfiles hkept hkind hnew hsame =>
      have hgrid : base.value.isConstant = false := by
        rw [← hkind, ← hvalue]
        rfl
      rw [hkept]
      cases hbase with
      | «variable» hbound =>
          dsimp only at hgrid ⊢
          rw [hgrid]
          refine .inr ⟨rfl, fun hminus => ?_⟩
          obtain ⟨name', hminus, hfree⟩ := hnegates hminus
          cases halone.symm.trans hminus
          cases hbound.symm.trans hfree
      | keyword => cases hgrid
      | @file opened loaded records hfree _ hsuffix _ hread hload =>
          refine .inl ⟨rfl, ?_⟩
          cases minus with
          | true =>
              have hnegated := hnew rfl
              rw [← hvalue] at hnegated
              exact .negated
                ⟨hname, prepared, chain, name, hprepare, hspells, halone, hfree, hsuffix⟩ hnegated
          | false =>
              have hopened : opened.IsOpened session.files (plan.settings.resolveInput name) :=
                Grid.isOpened_read _ _ [] opened (congrArg Prod.fst hread)
              have hplain : ¬ NegatesFile plan session expression := by
                intro hminus
                obtain ⟨name', hminus, -⟩ := hnegates hminus
                cases halone.symm.trans hminus
              rw [hfiles]
              exact fromFile_of_load hlogs hplain hsuffix hopened hload
                (hvalue.trans (hsame rfl)) records

/-- What is bound for a value, and what is written for it: a computed grid is written, and bound is
the grid with its file. -/
inductive Stores (plan : Plan K V) (assignment : Assignment) (files : FileTree)
    (provenance : Provenance) (owned saved : Operand K V S) (results : List (Place × Raster S)) :
    Prop
  | constant {c : Constant V} (howned : owned = .constant c) (hsaved : saved = .constant c)
      (hresults : results = [])
  | persisted {grid : Grid K V S} (h : provenance.isPersisted = true) (howned : owned = .grid grid)
      (hsaved : saved = .grid grid) (hresults : results = [])
  | computed {grid output : Grid K V S} {place : Place} {cells : Raster S}
      (h : provenance.isPersisted = false) (howned : owned = .grid grid)
      (hrounded : rounded plan grid = .ok output) (hcells : output.values = .ok cells)
      (hplace : files.place (plan.resultPath files assignment) = .ok place)
      (hsaved : saved = .grid { grid with
        path := some (plan.resultPath files assignment), name := assignment.name })
      (hresults : results = [(place, cells)])

/-- The steps of an assignment that succeeded. -/
structure Assigned (plan : Plan K V) (assignment : Assignment) (before : Session K V S)
    (binding : Binding K V S) (after : Session K V S) where
  value : Operand K V S
  provenance : Provenance
  /-- The session when the right side has its value. -/
  evaluated : Session K V S
  /-- The grids written for parts of the right side. -/
  traced : List (Place × Raster S)
  /-- The value, or its copy when a variable has the value. -/
  owned : Operand K V S
  saved : Operand K V S
  metadata : Option Metadata
  /-- The session when the value is written. -/
  stored : Session K V S
  /-- The grids written for the value. -/
  results : List (Place × Raster S)
  evaluates : Run.from? before (plan.value assignment.expression) =
    (.ok (value, provenance), evaluated)
  advances : Advances plan.settings (before.counter + 1) traced before evaluated
  owns : Plan.unowned evaluated.table assignment.name value = .ok owned
  stores : Stores plan assignment stored.files provenance owned saved results
  proceeds : Proceeds results evaluated stored
  binds : after = bound stored (newBinding assignment provenance saved metadata)
  gives : binding = (after.table.get? assignment.name).getD
    (newBinding assignment provenance saved metadata)

theorem nonempty_assigned_of_assign_eq_ok [LawfulCell S] (hcalm : session.Calm)
    {binding : Binding K V S}
    (h : Run.from? session (plan.assign assignment) = (.ok binding, after)) :
    Nonempty (Assigned plan assignment session binding after) := by
  unfold Plan.assign at h
  obtain ⟨⟨value, provenance⟩, evaluated, hvalue, howning⟩ := Run.from?_bind_eq_ok.mp h
  obtain ⟨traced, hadvances⟩ := exists_advances_of_value_eq_ok hcalm hvalue
  obtain ⟨_, _, hget, hcopying⟩ := Run.from?_bind_eq_ok.mp howning
  obtain ⟨rfl, rfl⟩ := Run.from?_pure_eq_ok.mp hget
  obtain ⟨owned, _, hlift, hsaving⟩ := Run.from?_bind_eq_ok.mp hcopying
  obtain ⟨howned, rfl⟩ := Run.from?_liftExcept_eq_ok.mp hlift
  have hstays : Proceeds (S := S) [] evaluated evaluated :=
    .of_table_eq (Nat.le_refl _) rfl rfl (.refl _)
  -- only a grid that was computed is written before it is bound
  cases owned with
  | constant c =>
      cases hsaving
      exact ⟨⟨value, provenance, evaluated, traced, .constant c, .constant c, none, evaluated, [],
        hvalue, hadvances, howned, .constant rfl rfl rfl, hstays, rfl, rfl⟩⟩
  | grid g =>
      dsimp only at hsaving
      split at hsaving
      next hpersisted =>
        cases hsaving
        exact ⟨⟨value, provenance, evaluated, traced, .grid g, .grid g, none, evaluated, [],
          hvalue, hadvances, howned, .persisted hpersisted rfl rfl rfl, hstays, rfl, rfl⟩⟩
      next hpersisted =>
        obtain ⟨⟨saved, metadata⟩, stored, hsave, hbinding⟩ := Run.from?_bind_eq_ok.mp hsaving
        have hlogs := (hadvances.toProceeds.calm hcalm).logs
        obtain ⟨output, place, cells, hrounded, hcells, hplace, hproceeds, hsaved⟩ :=
          exists_proceeds_of_save_eq_ok hlogs hsave
        cases hbinding
        have hstores : Stores plan assignment stored.files provenance (.grid g) (.grid saved)
            [(place, cells)] :=
          .computed (by simpa using hpersisted) rfl hrounded hcells hplace
            (congrArg Operand.grid hsaved) rfl
        exact ⟨⟨value, provenance, evaluated, traced, .grid g, .grid saved, metadata, stored,
          [(place, cells)], hvalue, hadvances, howned, hstores, hproceeds, rfl, rfl⟩⟩

end Script

end MapAlgebra
