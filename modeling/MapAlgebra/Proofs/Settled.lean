import MapAlgebra.Proofs.Assignments

/-!
# Between statements

Between two statements of a script the bound values are apart from each other, and what is not a
constant is in a file that is there or, without a file, in memory. Every statement that succeeds
leaves such a session.
-/

namespace MapAlgebra.Script

open Expression Session

variable {K V S : Type} [Coordinate K] [Number V] [Cell S V]

section Values

variable {files before after : FileTree} {value now : Operand K V S} {binding : Binding K V S}

/-- A value that later statements can read: a constant, a grid in memory without a file, or one with
a file that is there. -/
inductive Readable (files : FileTree) : Operand K V S → Prop
  | constant (c : Constant V) : Readable files (.constant c)
  | resident {grid : Grid K V S} {cells : Raster S} (hpath : grid.path = none)
      (hcells : grid.cells = .resident cells) : Readable files (.grid grid)
  | behind {grid : Grid K V S} {path : Path} (hpath : grid.path = some path)
      (hgrid : path.IsGridPath) (hread : ∃ bytes, files.read path = .ok bytes) :
      Readable files (.grid grid)

/-- A readable value whose cells are in its file, if it has one. -/
structure Stored (files : FileTree) (value : Operand K V S) : Prop where
  readable : Readable files value
  onDisk : ∀ grid path, value = .grid grid → grid.path = some path → grid.cells = .onDisk path

omit [Coordinate K] [Number V] [Cell S V] in
theorem Readable.atSlot (h : Readable files value) (slot : Nat) :
    Readable files (value.atSlot slot) := by
  cases h with
  | constant c => exact .constant _
  | resident hpath hcells => exact .resident hpath hcells
  | behind hpath hgrid hread => exact .behind hpath hgrid hread

omit [Coordinate K] in
theorem pathExists_of_read_eq_ok {path : Path} {bytes : List UInt8}
    (h : files.read path = .ok bytes) : files.pathExists path := by
  obtain ⟨place, hplace, hnode⟩ := FileTree.read_eq_ok_iff.mp h
  unfold FileTree.pathExists FileTree.lookup?
  rw [hplace]
  dsimp only
  rw [hnode]
  rfl

theorem value_released_of_path_eq_none {grid : Grid K V S} (hvalue : binding.value = .grid grid)
    (hpath : grid.path = none) :
    (VariableTable.released files binding).value = .grid grid := by
  unfold VariableTable.released Operand.release? Grid.release?
  dsimp only
  rw [hvalue]
  dsimp only
  rw [hpath]
  rfl

/-- The cells of a grid are given up when its file is there. -/
theorem value_released_of_exists_read {grid : Grid K V S} {path : Path}
    (hvalue : binding.value = .grid grid) (hpath : grid.path = some path)
    (hread : ∃ bytes, files.read path = .ok bytes) :
    (VariableTable.released files binding).value = .grid { grid with cells := .onDisk path } := by
  obtain ⟨bytes, hbytes⟩ := hread
  unfold VariableTable.released Operand.release? Grid.release?
  dsimp only
  rw [hvalue]
  dsimp only
  rw [hpath]
  dsimp only
  rw [if_pos (pathExists_of_read_eq_ok hbytes)]
  rfl

theorem value_released_constant {c : Constant V} (hvalue : binding.value = .constant c) :
    (VariableTable.released files binding).value = .constant c := by
  unfold VariableTable.released
  dsimp only
  rw [hvalue]
  rfl

/-- A readable value is stored once its cells are given up. -/
theorem Readable.stored_released (h : Readable files binding.value) :
    Stored files (VariableTable.released files binding).value := by
  generalize hvalue : binding.value = value at h
  cases h with
  | constant c =>
      rw [value_released_constant hvalue]
      exact ⟨.constant c, nofun⟩
  | @resident grid cells hpath hcells =>
      rw [value_released_of_path_eq_none hvalue hpath]
      refine ⟨.resident hpath hcells, fun _ path hgrid hsome => ?_⟩
      cases hgrid
      cases hpath.symm.trans hsome
  | @behind grid path hpath hgrid hread =>
      rw [value_released_of_exists_read hvalue hpath hread]
      refine ⟨.behind hpath hgrid hread, fun _ other hgrid' hsome => ?_⟩
      cases hgrid'
      cases hpath.symm.trans hsome
      rfl

/-- A stored value stays readable, whatever was loaded and written. -/
theorem Stored.readable_of_reloaded (h : Stored before value) (hnow : value.Reloaded now)
    {writes : List (Place × Raster S)} (hfiles : Written K writes before after) :
    Readable after now := by
  cases hnow with
  | constant c => exact .constant c
  | grid hslot hpath hrows hcols hcells =>
      cases h.readable with
      | resident hnone hresident =>
          refine .resident (hpath.trans hnone) ((hcells hnone ?_).trans hresident)
          unfold Grid.isLoaded
          rw [hresident]
      | behind hsome hgrid hread =>
          exact .behind (hpath.trans hsome) hgrid (hfiles.exists_read_eq_ok hgrid hread)

end Values

section Sessions

variable [Conversion K V] {plan : Plan K V} {assignment : Assignment}
  {session before after : Session K V S} {binding : Binding K V S}

/-- A session between two statements. -/
structure Settled (session : Session K V S) : Prop where
  calm : session.Calm
  fresh : session.table.Fresh
  stored : ∀ binding ∈ session.table.bindings, Stored session.files binding.value

omit [Conversion K V] in
/-- Binding a readable value and giving up cells settles a session. -/
theorem settled_bound (hcalm : session.Calm) (hfresh : session.table.Fresh)
    (hreadable : ∀ old ∈ session.table.bindings, Readable session.files old.value)
    (hslot : binding.value.slot = none) (hbinding : Readable session.files binding.value) :
    Settled (bound session binding) where
  calm := {
    logs := hcalm.logs
    apart := VariableTable.apart_releaseAll _ (VariableTable.apart_bind hcalm.apart hfresh hslot) }
  fresh := VariableTable.fresh_releaseAll _ (VariableTable.fresh_bind hfresh hslot)
  stored other hother := by
    obtain ⟨old, hold, rfl⟩ := List.mem_map.mp hother
    rcases VariableTable.mem_bind hold with hkept | rfl
    · exact (hreadable old hkept).stored_released
    · refine Readable.stored_released ?_
      rw [VariableTable.value_kept hslot]
      exact hbinding.atSlot _

section Unowned

omit [Coordinate K] [Cell S V] [Conversion K V]

variable {name : Text} {value owned : Operand K V S}

/-- A value that was evaluated is at a slot only if a variable has it, and is copied then. -/
theorem unowned_eq_ok (hknows : session.Knows value.slot)
    (h : Plan.unowned session.table name value = .ok owned) :
    value.slot = none ∧ owned = value ∨ value.slot ≠ none ∧ value.copy name = .ok owned := by
  unfold Plan.unowned at h
  split at h
  next hbound =>
    refine .inr ⟨fun hnone => ?_, h⟩
    rw [hnone] at hbound
    cases hbound
  next hfree =>
    refine .inl ⟨?_, (Except.ok.inj h).symm⟩
    rcases hknows with hnone | hmem
    · exact hnone
    · by_contra hsome
      obtain ⟨old, hold, hslot⟩ := List.mem_map.mp hmem
      refine hfree (Bool.and_eq_true_iff.mpr ⟨Option.isSome_iff_ne_none.mpr hsome, ?_⟩)
      exact List.any_eq_true.mpr ⟨old, hold, beq_iff_eq.mpr hslot⟩

theorem slot_unowned (hknows : session.Knows value.slot)
    (h : Plan.unowned session.table name value = .ok owned) : owned.slot = none := by
  rcases unowned_eq_ok hknows h with ⟨hslot, howned⟩ | ⟨-, hcopy⟩
  · rw [howned, hslot]
  · exact (Operand.isNew_copy _ _ _ hcopy).slot_eq

end Unowned

namespace Assigned

variable (assigned : Assigned plan assignment before binding after)

theorem files_after : after.files = assigned.stored.files :=
  (congrArg Session.files assigned.binds).trans rfl

theorem counter_after : after.counter = assigned.stored.counter :=
  (congrArg Session.counter assigned.binds).trans rfl

theorem proceeds_stored :
    Proceeds (assigned.traced ++ assigned.results) before assigned.stored :=
  assigned.advances.toProceeds.trans assigned.proceeds

/-- The name of an assignment is bound to its value, the cells of which are given up. -/
theorem get?_after : after.table.get? assignment.name =
    some (VariableTable.released assigned.stored.files (assigned.stored.table.kept
      (newBinding assignment assigned.provenance assigned.saved assigned.metadata))) := by
  refine (congrArg (·.table.get? assignment.name) assigned.binds).trans ?_
  rw [get?_bound]
  exact if_pos rfl

theorem binding_eq : binding = VariableTable.released assigned.stored.files
    (assigned.stored.table.kept
      (newBinding assignment assigned.provenance assigned.saved assigned.metadata)) := by
  refine assigned.gives.trans ?_
  rw [assigned.get?_after]
  rfl

theorem get?_eq_binding (assigned : Assigned plan assignment before binding after) :
    after.table.get? assignment.name = some binding :=
  assigned.get?_after.trans (congrArg some assigned.binding_eq.symm)

/-- Other names are bound to what they were bound to, which may have been loaded. -/
theorem get?_of_ne {name : Text}
    (hname : VariableTable.key name ≠ VariableTable.key assignment.name) {other : Binding K V S}
    (hother : before.table.get? name = some other) :
    ∃ now, after.table.get? name = some (VariableTable.released assigned.stored.files now) ∧
      other.Reloaded now := by
  obtain ⟨now, hnow, hreloaded⟩ := assigned.proceeds_stored.bindings.find?_eq_some hother
  refine ⟨now, (congrArg (·.table.get? name) assigned.binds).trans ?_, hreloaded⟩
  rw [get?_bound]
  exact (if_neg hname).trans (congrArg (Option.map _) hnow)

/-- The file of a result holds the cells that were written to it. -/
theorem exists_read_result {place : Place} {cells : Raster S}
    (hplace : assigned.stored.files.place (plan.resultPath assigned.stored.files assignment) =
      .ok place) (hresults : assigned.results = [(place, cells)]) :
    ∃ bytes,
      assigned.stored.files.read (plan.resultPath assigned.stored.files assignment) = .ok bytes ∧
      Idf.readCells (K := K) assigned.stored.files
        (plan.resultPath assigned.stored.files assignment) = .ok cells := by
  have hgrid := isGridPath_resultPath plan assigned.stored.files assignment
  refine assigned.proceeds.files.exists_read_of_lastWrite hplace (hgrid.isGridPlace hplace) ?_
  rw [hresults, lastWrite_singleton, if_pos rfl]

theorem knows_slot : assigned.evaluated.Knows assigned.value.slot :=
  (leads_value assignment.expression).gives _ _ assigned.evaluates

/-- A value is bound as it is unless a variable has it, and as a copy then. -/
theorem owned_eq :
    assigned.value.slot = none ∧ assigned.owned = assigned.value ∨
      assigned.value.slot ≠ none ∧ assigned.value.copy assignment.name = .ok assigned.owned :=
  unowned_eq_ok assigned.knows_slot assigned.owns

theorem slot_owned : assigned.owned.slot = none :=
  slot_unowned assigned.knows_slot assigned.owns

theorem slot_saved : assigned.saved.slot = none := by
  have hslot := assigned.slot_owned
  cases assigned.stores with
  | constant howned hsaved => rwa [hsaved, ← howned]
  | persisted _ howned hsaved => rwa [hsaved, ← howned]
  | computed _ howned _ _ _ hsaved =>
      rw [howned] at hslot
      rw [hsaved]
      exact hslot

/-- A grid either counts as one from a file and comes from one, or it is written, and then its
expression is no file with a minus sign. -/
theorem fromFile_or (hcalm : before.Calm) {grid : Grid K V S}
    (hvalue : assigned.value = .grid grid) :
    assigned.provenance.isPersisted = true ∧
        FromFile plan before assignment.expression grid assigned.evaluated.files ∨
      assigned.provenance.isPersisted = false ∧
        ¬ NegatesFile plan before assignment.expression := by
  have hevaluates := assigned.evaluates
  rw [hvalue] at hevaluates
  rcases value_eq_ok hevaluates with ⟨hname, hfile, opened, records, hopen, hopened, hafter⟩ |
    ⟨hname, hparse⟩
  · cases hopen
    rw [hfile, hafter]
    exact .inl ⟨rfl, fromFile_of_isOpened hcalm.logs hname hopened records⟩
  · exact fromFile_or_of_parse_eq_ok hcalm.logs hname hparse

/-- What is bound without being written is the value. -/
theorem fromFile_of_persisted (hcalm : before.Calm) {grid : Grid K V S}
    (hpersisted : assigned.provenance.isPersisted = true) (howned : assigned.owned = .grid grid) :
    assigned.value = .grid grid ∧
      FromFile plan before assignment.expression grid assigned.evaluated.files := by
  have hor := assigned.owned_eq
  cases hvalue : assigned.value with
  | constant c =>
      rw [hvalue, howned] at hor
      rcases hor with ⟨-, hsame⟩ | ⟨-, hcopy⟩
      · cases hsame
      · cases hcopy
  | grid g =>
      rcases assigned.fromFile_or hcalm hvalue with ⟨-, hfile⟩ | ⟨hcomputed, -⟩
      · have hslot : g.slot = none := by
          cases hfile with
          | negated _ hnew => exact hnew.slot
          | loaded _ _ _ hslot => exact hslot
        rw [hvalue, howned] at hor
        rcases hor with ⟨-, hsame⟩ | ⟨hsome, -⟩
        · cases hsame
          exact ⟨rfl, hfile⟩
        · exact absurd hslot hsome
      · rw [hpersisted] at hcomputed
        cases hcomputed

theorem readable_saved (hcalm : before.Calm) :
    Readable assigned.stored.files assigned.saved := by
  cases assigned.stores with
  | @constant c _ hsaved =>
      rw [hsaved]
      exact .constant c
  | persisted hpersisted howned hsaved hresults =>
      rw [hsaved]
      cases (assigned.fromFile_of_persisted hcalm hpersisted howned).2 with
      | negated _ hnew =>
          obtain ⟨cells, hcells⟩ := hnew.resident
          exact .resident hnew.path hcells
      | loaded _ hsuffix hpath _ hread =>
          have hgrid := Path.isGridPath_resolveInput plan.settings hsuffix
          exact .behind hpath hgrid (assigned.proceeds.files.exists_read_eq_ok hgrid hread)
  | @computed grid output place cells _ _ _ _ hplace hsaved hresults =>
      rw [hsaved]
      obtain ⟨bytes, hread, -⟩ := assigned.exists_read_result hplace hresults
      exact .behind rfl (isGridPath_resultPath ..) ⟨bytes, hread⟩

/-- What is kept of a value has a slot of its own. -/
theorem value_kept :
    (assigned.stored.table.kept (newBinding assignment assigned.provenance assigned.saved
      assigned.metadata)).value = assigned.saved.atSlot assigned.stored.table.nextSlot :=
  VariableTable.value_kept assigned.slot_saved

/-- A constant that is saved is bound. -/
theorem value_binding_constant {c : Constant V}
    (hsaved : assigned.saved = .constant c) :
    binding.value = (Operand.constant c).atSlot assigned.stored.table.nextSlot := by
  refine (congrArg Binding.value assigned.binding_eq).trans ?_
  exact value_released_constant
    (assigned.value_kept.trans (congrArg (Operand.atSlot _) hsaved))

/-- A saved grid without a file is bound as it is. -/
theorem value_binding_of_path_eq_none {grid : Grid K V S}
    (hsaved : assigned.saved = .grid grid) (hpath : grid.path = none) :
    binding.value = .grid { grid with slot := some assigned.stored.table.nextSlot } := by
  refine (congrArg Binding.value assigned.binding_eq).trans ?_
  exact value_released_of_path_eq_none
    (assigned.value_kept.trans (congrArg (Operand.atSlot _) hsaved)) hpath

/-- A saved grid with a file that is there is bound with its cells on disk. -/
theorem value_binding_of_exists_read {grid : Grid K V S} {path : Path}
    (hsaved : assigned.saved = .grid grid) (hpath : grid.path = some path)
    (hread : ∃ bytes, assigned.stored.files.read path = .ok bytes) :
    binding.value = .grid { grid with
      cells := .onDisk path, slot := some assigned.stored.table.nextSlot } := by
  refine (congrArg Binding.value assigned.binding_eq).trans ?_
  exact value_released_of_exists_read
    (assigned.value_kept.trans (congrArg (Operand.atSlot _) hsaved)) hpath hread

/-- Assignments settle sessions. -/
theorem settled (assigned : Assigned plan assignment before binding after)
    (hsettled : Settled before) : Settled after := by
  have hproceeds := assigned.proceeds_stored
  rw [assigned.binds]
  refine settled_bound (hproceeds.calm hsettled.calm)
    (hsettled.fresh.of_reloaded hproceeds.nextSlot hproceeds.bindings) ?_
    assigned.slot_saved (assigned.readable_saved hsettled.calm)
  -- what was readable stays so, since files that are written are left readable
  intro now hnow
  obtain ⟨old, hold, hreloaded⟩ := hproceeds.bindings.exists_of_mem hnow
  exact (hsettled.stored old hold).readable_of_reloaded hreloaded.value hproceeds.files

end Assigned

omit [Conversion K V] in
/-- A log record leaves a session settled. -/
theorem Settled.addRecord (hsettled : Settled session) (record : Record) :
    Settled (session.addRecord record) := by
  have hlogged : Advances (K := K) (V := V) {} 0 [] session (session.addRecord record) :=
    advances_addRecord 0 hsettled.calm.logs record
  refine ⟨hlogged.calm hsettled.calm,
    hsettled.fresh.of_reloaded hlogged.nextSlot hlogged.bindings, fun binding hbinding => ?_⟩
  rw [table_addRecord] at hbinding
  have hstored := hsettled.stored binding hbinding
  exact ⟨hstored.readable_of_reloaded (.refl _) hlogged.files, hstored.onDisk⟩

/-- What is logged of an assignment before it is carried out. -/
def evaluating (line : Line) : Record :=
  let shown := str (Text.trim line.text)
  ⟨.info, s!"Evaluating expression at line {line.number}: '{shown}' ..."⟩

/-- A line that is an assignment logs it and carries it out. -/
theorem executeLine_assign_eq_ok {line : Line} {found : Option (Binding K V S)}
    (hstatement : Statement.ofText line.text = .ok (.assign assignment)) :
    Run.from? before (plan.executeLine line) = (.ok found, after) ↔
      ∃ binding, found = some binding ∧
        Run.from? (before.addRecord (evaluating line)) (plan.assign assignment) =
          (.ok binding, after) := by
  have hassign : Run.from? before (plan.execute line (.assign assignment)) = (.ok found, after) ↔
      ∃ binding, found = some binding ∧
        Run.from? (before.addRecord (evaluating line)) (plan.assign assignment) =
          (.ok binding, after) := by
    constructor
    · intro h
      obtain ⟨_, _, hlog, hassigning⟩ := Run.from?_bind_eq_ok.mp h
      obtain ⟨binding, _, hassign, hreturn⟩ := Run.from?_bind_eq_ok.mp hassigning
      obtain ⟨rfl, rfl⟩ := Run.from?_pure_eq_ok.mp hreturn
      rw [← Run.from?_record_eq_ok.mp hlog] at hassign
      exact ⟨binding, rfl, hassign⟩
    · rintro ⟨binding, rfl, hassign⟩
      refine Run.from?_bind_eq_ok.mpr ⟨(), _, rfl, ?_⟩
      exact Run.from?_bind_eq_ok.mpr ⟨binding, after, hassign, rfl⟩
  unfold Plan.executeLine
  rw [Run.from?_tryCatch_throw_eq_ok, Run.from?_bind_eq_ok, ← hassign]
  constructor
  · rintro ⟨statement, _, hreading, hexecute⟩
    obtain ⟨hread, rfl⟩ := Run.from?_liftExcept_eq_ok.mp hreading
    cases hstatement.symm.trans hread
    exact hexecute
  · intro hexecute
    exact ⟨_, before, Run.from?_liftExcept_eq_ok.mpr ⟨hstatement, rfl⟩, hexecute⟩

/-- A line that succeeds is an assignment, or it is blank or a remark and logged at most. -/
theorem executeLine_eq_ok {line : Line} {found : Option (Binding K V S)}
    (h : Run.from? before (plan.executeLine line) = (.ok found, after)) :
    (∃ assignment, Statement.ofText line.text = .ok (.assign assignment)) ∨
      after = before ∨ ∃ record, after = before.addRecord record := by
  unfold Plan.executeLine at h
  rw [Run.from?_tryCatch_throw_eq_ok] at h
  obtain ⟨statement, _, hreading, hexecuting⟩ := Run.from?_bind_eq_ok.mp h
  obtain ⟨hstatement, rfl⟩ := Run.from?_liftExcept_eq_ok.mp hreading
  rw [hstatement]
  cases statement with
  | blank =>
      obtain ⟨-, rfl⟩ := Run.from?_pure_eq_ok.mp hexecuting
      exact .inr (.inl rfl)
  | comment text =>
      unfold Plan.execute at hexecuting
      dsimp only at hexecuting
      split at hexecuting
      next =>
        obtain ⟨_, logged, hlog, hreturn⟩ := Run.from?_bind_eq_ok.mp hexecuting
        obtain ⟨-, rfl⟩ := Run.from?_pure_eq_ok.mp hreturn
        exact .inr (.inr ⟨_, (Run.from?_record_eq_ok.mp hlog).symm⟩)
      next =>
        obtain ⟨-, rfl⟩ := Run.from?_pure_eq_ok.mp hexecuting
        exact .inr (.inl rfl)
  | assign assignment => exact .inl ⟨assignment, rfl⟩
  | loop _ => cases hexecuting
  | next _ => cases hexecuting

/-- The binding of the keyword for no data. -/
def keyword : Binding K V S where
  name := Constant.nodataName
  value := .constant Constant.ofKeyword
  provenance := .constant
  isPersisted := true

omit [Coordinate K] [Cell S V] [Conversion K V] in
theorem table_start (files : FileTree) :
    (start files : Session K V S).table = VariableTable.bind {} keyword := rfl

/-- A session before the first line of a script. A file that records go to, if there is one, is none
that a grid may be read from. -/
structure Begun (session : Session K V S) : Prop where
  logs : session.LogsElsewhere
  table : session.table = (start session.files).table

omit [Coordinate K] [Cell S V] [Conversion K V] in
theorem begun_start (files : FileTree) : Begun (start files : Session K V S) :=
  ⟨nofun, rfl⟩

omit [Coordinate K] [Cell S V] [Conversion K V] in
theorem slotted_start (files : FileTree) : (start files : Session K V S).table.Slotted := by
  rw [table_start]
  exact VariableTable.Slotted.empty.bind rfl

omit [Coordinate K] [Cell S V] [Conversion K V] in
theorem Begun.settled (h : Begun session) : Settled session := by
  have hslotted : session.table.Slotted := h.table ▸ slotted_start session.files
  refine ⟨⟨h.logs, hslotted.apart⟩, hslotted.fresh, fun binding hbinding => ?_⟩
  rw [h.table, table_start] at hbinding
  rcases VariableTable.mem_bind hbinding with hold | rfl
  · cases hold
  · exact ⟨.constant _, nofun⟩

/-- Where a script comes that has not failed, by its lines and log records. -/
inductive Reached (plan : Plan K V) : Session K V S → Prop
  | begin {session : Session K V S} (h : Begun session) : Reached plan session
  | record {session : Session K V S} (h : Reached plan session) (record : Record) :
      Reached plan (session.addRecord record)
  | line {before after : Session K V S} {line : Line} {found : Option (Binding K V S)}
      (h : Reached plan before)
      (hline : Run.from? before (plan.executeLine line) = (.ok found, after)) : Reached plan after

theorem Settled.of_executeLine_eq_ok [LawfulCell S] (hsettled : Settled before) {line : Line}
    {found : Option (Binding K V S)}
    (h : Run.from? before (plan.executeLine line) = (.ok found, after)) : Settled after := by
  rcases executeLine_eq_ok h with ⟨assignment, hstatement⟩ | rfl | ⟨record, rfl⟩
  · obtain ⟨binding, -, hassign⟩ := (executeLine_assign_eq_ok hstatement).mp h
    have hlogged := hsettled.addRecord (evaluating line)
    obtain ⟨assigned⟩ := nonempty_assigned_of_assign_eq_ok hlogged.calm hassign
    exact assigned.settled hlogged
  · exact hsettled
  · exact hsettled.addRecord record

theorem Reached.settled [LawfulCell S] (h : Reached plan session) : Settled session := by
  induction h with
  | begin h => exact h.settled
  | record _ record ih => exact ih.addRecord record
  | line _ hline ih => exact ih.of_executeLine_eq_ok hline

/-- Lines in a row that succeed lead on. -/
theorem Reached.executeLines (h : Reached plan before) {lines : List Line} {u : Unit}
    (hlines : Run.from? before (plan.executeLines lines) = (.ok u, after)) :
    Reached plan after := by
  induction lines generalizing before with
  | nil =>
      obtain ⟨-, rfl⟩ := Run.from?_pure_eq_ok.mp hlines
      exact h
  | cons line rest ih =>
      obtain ⟨found, between, hline, hrest⟩ := Run.from?_bind_eq_ok.mp hlines
      exact ih (.line h hline) hrest

end Sessions

end MapAlgebra.Script
