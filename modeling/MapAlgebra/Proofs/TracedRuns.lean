import MapAlgebra.Proofs.Pairs
import MapAlgebra.Proofs.Tracing

/-!
# Runs with and without tracing

A script that is run with the results of parts written leaves the same bindings, the same count of
expressions and, outside the directory of those results, the same files as one that is run without.
This takes lines that keep out of the directory, and that look for no file by way of it, or of a
place on the way to it, while that is missing: there the run that traces finds what the other one
misses, and a missing file may end a run quietly.
-/

namespace MapAlgebra

namespace Run.Agree

variable {K V S α β : Type} {R : Session K V S → Session K V S → Prop} {heed : Fault → Prop}
  {Q : α → α → Prop} {s t : Session K V S}

/-- Changes of files without a fault to heed agree when those that succeed do. -/
theorem changeFiles_of_ok {change change' : FileTree → Except Fault α × FileTree}
    (hfails : Fails (fun fault => ¬ heed fault) (change s.files).1)
    (hfails' : Fails (fun fault => ¬ heed fault) (change' t.files).1)
    (hgives : ∀ a b plain traced, change s.files = (.ok a, plain) →
      change' t.files = (.ok b, traced) →
        Q a b ∧ R { s with files := plain } { t with files := traced }) :
    Agree R heed Q s t (Run.changeFiles change) (Run.changeFiles change') := by
  unfold Agree
  rw [from?_changeFiles, from?_changeFiles]
  rcases hleft : change s.files with ⟨f | a, plain⟩
  · exact .of_first (hfails f (congrArg Prod.fst hleft)) _ _
  rcases hright : change' t.files with ⟨g | b, traced⟩
  · exact .of_second (hfails' g (congrArg Prod.fst hright)) _ _
  · exact .gives (hgives _ _ _ _ hleft hright).1 (hgives _ _ _ _ hleft hright).2

end Run.Agree

/-- The file of a value. -/
def Operand.file? {K V S : Type} : Operand K V S → Option Path
  | .constant _ => none
  | .grid g => g.path

namespace VariableTable

variable {K V S : Type} [Coordinate K] [Number V] [Cell S V]

theorem file?_released (files : FileTree) (binding : Binding K V S) :
    (released files binding).value.file? = binding.value.file? := by
  rcases value_released_eq_or files binding with hsame | ⟨grid, path, hgrid, -, hvalue⟩
  · rw [hsame]
  · rw [hvalue, hgrid]
    rfl

omit [Coordinate K] [Number V] [Cell S V] in
theorem file?_kept (table : VariableTable K V S) (binding : Binding K V S) :
    (table.kept binding).value.file? = binding.value.file? := by
  unfold kept keep
  dsimp only
  split
  next => rfl
  next => cases binding.value <;> rfl

/-- Cells are given up alike where the file of a value is found alike. -/
theorem released_congr {before after : FileTree} {binding : Binding K V S}
    (h : ∀ path, binding.value.file? = some path →
      after.pathExists path = before.pathExists path) :
    released after binding = released before binding := by
  unfold released Operand.release?
  cases hvalue : binding.value with
  | constant c => rfl
  | grid g =>
      rw [hvalue] at h
      dsimp only
      unfold Grid.release?
      cases hpath : g.path with
      | none => rfl
      | some path =>
          dsimp only
          rw [h path hpath]

end VariableTable

namespace Script

open Expression Session Run

variable {K V S : Type} [Coordinate K] [Number V] [Cell S V] [Conversion K V]

omit [Coordinate K] [Number V] [Cell S V] [Conversion K V] in
theorem Stored.pathExists_of_file? {value : Operand K V S} {path : Path} {files : FileTree}
    (h : Stored files value) (hpath : value.file? = some path) : files.pathExists path = true := by
  cases h.readable with
  | constant c => cases hpath
  | resident hnone => cases hnone.symm.trans hpath
  | behind hsome _ hread =>
      cases hsome.symm.trans hpath
      obtain ⟨bytes, hbytes⟩ := hread
      exact pathExists_of_read_eq_ok hbytes

omit [Coordinate K] [Number V] [Cell S V] [Conversion K V] in
/-- A grid is read from the file that it has. -/
theorem Stored.file?_eq_some {value : Operand K V S} {grid : Grid K V S} {path : Path}
    {files : FileTree} (h : Stored files value) (hvalue : value = .grid grid)
    (hpath : grid.path = some path ∨ grid.cells = .onDisk path) : value.file? = some path := by
  subst hvalue
  rcases hpath with hpath | hcells
  · exact hpath
  · cases h.readable with
    | resident _ hresident => cases hresident.symm.trans hcells
    | @behind _ other hsome =>
        cases (h.onDisk grid other rfl hsome).symm.trans hcells
        exact hsome

/-- The plan with results of parts written or not. -/
def Plan.tracing (plan : Plan K V) (on : Bool) : Plan K V :=
  { plan with settings := plan.settings.tracing on }

/-- The files that the right side of an assignment refers to, from left to right. -/
def Plan.references (plan : Plan K V) (session : Session K V S) (expression : Text) : List Path :=
  if plan.isFileName session.files expression then [plan.settings.resolveInput expression]
  else
    match prepare expression session.table.namesLongestFirst with
    | .error _ => []
    | .ok prepared => (⟨plan.settings, prepared⟩ : Scope K V).references

/-- The files that the right side of an assignment looks for: those that it refers to, up to the
first one that is missing. -/
def Plan.reads (plan : Plan K V) (session : Session K V S) (expression : Text) : List Path :=
  session.files.sought (plan.references session expression)

/-- What an assignment binds: its value, which is written first if it was computed. -/
def storing (plan : Plan K V) (assignment : Assignment) : Run K V S (Binding K V S) := do
  let (value, provenance) ← plan.value assignment.expression
  let owned ← liftExcept (Plan.unowned (← get).table assignment.name value)
  match owned with
  | .grid g =>
      if provenance.isPersisted then return newBinding assignment provenance (.grid g) none
      else
        let (saved, metadata) ← plan.save assignment g
        return newBinding assignment provenance (.grid saved) metadata
  | .constant c => return newBinding assignment provenance (.constant c) none

theorem assign_eq (plan : Plan K V) (assignment : Assignment) :
    (plan.assign assignment : Run K V S (Binding K V S)) = (do
      let binding ← storing plan assignment
      let session ← get
      set (bound session binding)
      return ((bound session binding).table.get? assignment.name).getD binding) := by
  unfold Plan.assign storing
  simp only [bind_assoc]
  refine bind_congr fun found => bind_congr fun session => bind_congr fun owned => ?_
  cases owned with
  | constant c => rfl
  | grid g =>
      dsimp only
      split
      next => rfl
      next => simp only [bind_assoc, pure_bind]; rfl

variable {plan : Plan K V} {assignment : Assignment} {files : FileTree} {s t : Session K V S}

/-- The directory of the results of parts in a run that begins with the given files. -/
def Plan.aside (plan : Plan K V) (files : FileTree) : Path :=
  plan.settings.traceDirectory files

omit [Coordinate K] [Number V] [Conversion K V] in
theorem aside_congr {before after : FileTree} (h : after.current = before.current)
    (plan : Plan K V) : plan.aside after = plan.aside before := by
  unfold Plan.aside Settings.traceDirectory Settings.outputDirectory FileTree.currentPath
  rw [h]

/-- Two sessions of runs that began with the given files, without and with tracing. -/
structure InStep (plan : Plan K V) (files : FileTree) (s t : Session K V S) : Prop where
  current : s.files.current = files.current
  beside : s.Beside (plan.aside files) s.counter t

namespace InStep

omit [Conversion K V] in
theorem addRecord (h : InStep plan files s t) (record : Record) :
    InStep plan files (s.addRecord record) (t.addRecord record) := by
  refine ⟨?_, ?_⟩
  · rw [addRecord_of_logFile_eq_none h.beside.logFile]
    exact h.current
  · rw [counter_addRecord]
    exact h.beside.addRecord record

omit [Conversion K V] in
/-- A grid may be written to one path in both sessions. -/
theorem withFiles (h : InStep plan files s t) {grid : Grid K V S} {path : Path}
    {metadata : Option Metadata} {plain traced : FileTree}
    (hplain : grid.write path metadata s.files = (.ok (), plain))
    (htraced : grid.write path metadata t.files = (.ok (), traced)) :
    InStep plan files { s with files := plain } { t with files := traced } := by
  have hkeeps := Grid.keeps_of_write_eq_ok hplain
  have hcurrent := hkeeps.current
  obtain ⟨numbers, hpairwise, hnumbers, heffects⟩ := h.beside.effects
  refine ⟨hcurrent.trans h.current, { h.beside with
    files := h.beside.files.write_grid hplain htraced
    effects := ⟨numbers, hpairwise, hnumbers, heffects.write hplain htraced⟩
    behind := fun binding hbinding grid path hvalue hpath => ?_ }⟩
  dsimp only
  rw [FileTree.target_congr hcurrent, FileTree.target_congr hcurrent]
  exact (h.beside.behind binding hbinding grid path hvalue hpath).imp_left hkeeps.pathExists

omit [Conversion K V] in
/-- What is bound with a file that is there, outside the directory, is bound in both sessions. -/
theorem bind (h : InStep plan files s t) {binding : Binding K V S}
    (hsettled : Settled (bound s binding))
    (hbinding : ∀ path, binding.value.file? = some path →
      ¬ s.files.target (plan.aside files) <+: s.files.target path) :
    InStep plan files (bound s binding) (bound t binding) := by
  have hbehind : ∀ kept ∈ (s.table.bind binding).bindings, ∀ path, kept.value.file? = some path →
      s.files.pathExists path = true ∧
        ¬ s.files.target (plan.aside files) <+: s.files.target path := by
    intro kept hkept path hpath
    have hreleased := VariableTable.file?_released s.files kept
    refine ⟨(hsettled.stored _ (List.mem_map_of_mem hkept)).pathExists_of_file?
      (hreleased.trans hpath), ?_⟩
    rcases VariableTable.mem_bind hkept with hold | rfl
    · cases hvalue : kept.value with
      | constant c =>
          rw [hvalue] at hpath
          cases hpath
      | grid g =>
          rw [hvalue] at hpath
          exact (h.beside.behind kept hold g path hvalue (.inl hpath)).2
    · exact hbinding path ((VariableTable.file?_kept _ _).symm.trans hpath)
  have htable : (bound t binding).table = (bound s binding).table := by
    have hreleased : (s.table.bind binding).bindings.map (VariableTable.released t.files) =
        (s.table.bind binding).bindings.map (VariableTable.released s.files) := by
      refine List.map_congr_left fun kept hkept => VariableTable.released_congr fun path hpath => ?_
      obtain ⟨hexists, houtside⟩ := hbehind kept hkept path hpath
      rw [(h.beside.files.read_eq houtside hexists).1, hexists]
    unfold bound
    dsimp only
    rw [h.beside.table]
    exact congrArg (fun bindings => { s.table.bind binding with bindings }) hreleased
  refine ⟨h.current, { h.beside with
    table := htable
    behind := fun now hnow grid path hvalue hpath => ?_ }⟩
  have hfile := (hsettled.stored now hnow).file?_eq_some hvalue hpath
  obtain ⟨kept, hkept, rfl⟩ := List.mem_map.mp hnow
  exact hbehind kept hkept path ((VariableTable.file?_released _ _).symm.trans hfile)

end InStep

section Reading

omit [Conversion K V] in
/-- A file that is opened by its name is opened alike when its path avoids the directory. -/
theorem agree_openFile_tracing {aside : Path} (h : Along aside files s t) {name : Text}
    (havoids : files.Avoids aside (plan.settings.resolveInput name)) :
    Run.Agree (Along aside files) Fault.IsQuiet Eq s t ((plan.tracing false).openFile name)
      ((plan.tracing true).openFile name) := by
  rw [← h.files] at havoids
  have hresolve (on : Bool) : (plan.tracing on).settings.resolveInput name =
      plan.settings.resolveInput name := rfl
  have hquiet (on : Bool) : (plan.tracing on).settings.quiet = plan.settings.quiet := rfl
  unfold Plan.openFile
  refine .get_bind ?_
  dsimp only
  rw [hresolve, hresolve, hquiet, hquiet, h.beside.files.pathExists_eq havoids]
  split
  next => exact .ite (fun _ => .throw_bind h rfl) fun _ => .throw_bind h rfl
  next hexists =>
    have hread := (h.beside.files.read_eq havoids.outside (by simpa using hexists)).2
    rw [Grid.read_congr hread]
    refine .bind (.traced h (fun record h => h.addRecord record) (.of_eq rfl)) ?_
    rintro grid _ _ _ rfl h
    exact .pure h rfl

/-- The right side of an assignment has the same value when the files it looks for avoid the
directory, with tracing and without. -/
theorem agree_value_tracing (hdebug : plan.settings.debug = false) (h : InStep plan files s t)
    {expression : Text}
    (hreads : ∀ path, path ∈ plan.reads s expression ∨ path ∈ plan.reads t expression →
      s.files.Avoids (plan.aside files) path) :
    Run.Agree (Along (plan.aside files) s.files) Fault.IsQuiet Eq s t
      ((plan.tracing false).value expression) ((plan.tracing true).value expression) := by
  have halong : Along (plan.aside files) s.files s t := ⟨rfl, h.beside⟩
  have hnamed {session : Session K V S}
      (hname : plan.isFileName session.files expression = true) :
      plan.settings.resolveInput expression ∈ plan.reads session expression := by
    unfold Plan.reads Plan.references
    rw [if_pos hname]
    exact List.mem_cons_self
  have hsame (havoids : s.files.Avoids (plan.aside files) (plan.settings.resolveInput expression)) :
      plan.isFileName t.files expression = plan.isFileName s.files expression := by
    unfold Plan.isFileName
    rw [h.beside.files.pathExists_eq havoids]
  -- a name of a file for one of the two is one for both
  have heq : plan.isFileName t.files expression = plan.isFileName s.files expression := by
    cases hname : plan.isFileName s.files expression with
    | true => exact hname ▸ hsame (hreads _ (.inl (hnamed hname)))
    | false =>
        cases hname' : plan.isFileName t.files expression with
        | true =>
            exact absurd (hname'.symm.trans ((hsame (hreads _ (.inr (hnamed hname')))).trans hname))
              Bool.noConfusion
        | false => rfl
  have hplan (on : Bool) (files : FileTree) : (plan.tracing on).isFileName files expression =
      plan.isFileName files expression := rfl
  unfold Plan.value
  refine .get_bind ?_
  rw [hplan, hplan, heq]
  refine .ite (fun hname => ?_) fun hname => ?_
  · refine .bind (agree_openFile_tracing halong (hreads _ (.inl (hnamed hname)))) ?_
    rintro value _ _ _ rfl h
    exact .pure h rfl
  · refine agree_parse_tracing hdebug (aside_congr h.current plan).symm halong
      fun prepared hprepare path hpath => hreads path (.inl ?_)
    unfold Plan.reads Plan.references
    rw [if_neg hname, hprepare]
    exact hpath

end Reading

section Storing

omit [Conversion K V] in
/-- A result is saved alike. -/
theorem agree_save_tracing (h : InStep plan files s t) (grid : Grid K V S) :
    Run.Agree (InStep plan files) Fault.IsQuiet Eq s t ((plan.tracing false).save assignment grid)
      ((plan.tracing true).save assignment grid) := by
  have hpath (on : Bool) {files : FileTree} (hcurrent : files.current = s.files.current) :
      (plan.tracing on).resultPath files assignment = plan.resultPath s.files assignment :=
    resultPath_congr plan hcurrent assignment
  unfold Plan.save
  refine .get_bind ?_
  rw [hpath false rfl, hpath true h.beside.files.current]
  dsimp only
  refine .bind (.lift h (.of_eq rfl)) ?_
  rintro output _ s t rfl h
  have hfails (files : FileTree) (metadata : Option Metadata) (path : Path) :
      Fails (fun fault => ¬ fault.IsQuiet) (output.write path metadata files).1 :=
    output.fails_write_of (fun _ => id) (fun _ h => h.not_isQuiet) id _ _ _
  refine .bind (.changeFiles_of_ok (Q := fun _ _ => True) (hfails _ _ _) (hfails _ _ _)
    fun _ _ plain traced hplain htraced => ⟨trivial, h.withFiles hplain htraced⟩) ?_
  exact fun _ _ _ _ _ h => .bind (.record (h.addRecord _)) fun _ _ _ _ _ h => .pure h rfl

/-- What an assignment stores is the same, with tracing and without. -/
theorem agree_storing_tracing (hdebug : plan.settings.debug = false) (h : InStep plan files s t)
    (hreads : ∀ path, path ∈ plan.reads s assignment.expression ∨
      path ∈ plan.reads t assignment.expression → s.files.Avoids (plan.aside files) path) :
    Run.Agree (InStep plan files) Fault.IsQuiet
      (Shared fun binding => binding.name = assignment.name) s t
      (storing (plan.tracing false) assignment) (storing (plan.tracing true) assignment) := by
  unfold storing
  have hle {s' t' : Session K V S} (h' : Along (plan.aside files) s.files s' t') :
      InStep plan files s' t' :=
    ⟨(congrArg FileTree.current h'.files).trans h.current, h'.beside⟩
  refine .bind ((agree_value_tracing hdebug h hreads).within hle) ?_
  rintro ⟨value, provenance⟩ _ s t rfl h
  refine .get_bind ?_
  rw [h.beside.table]
  refine .bind (.lift h (.of_eq rfl)) ?_
  rintro owned _ s t rfl h
  cases owned with
  | constant c => exact .pure h ⟨rfl, rfl⟩
  | grid g =>
      dsimp only
      refine .ite (fun _ => .pure h ⟨rfl, rfl⟩) fun _ => .bind (agree_save_tracing h g) ?_
      rintro ⟨saved, metadata⟩ _ s t rfl h
      exact .pure h ⟨rfl, rfl⟩

/-- An assignment binds the same in both sessions, when the file of what it binds is outside the
directory. -/
theorem agree_assign_tracing [LawfulCell S] (hdebug : plan.settings.debug = false)
    (h : InStep plan files s t) (hsettled : Settled s)
    (hreads : ∀ path, path ∈ plan.reads s assignment.expression ∨
      path ∈ plan.reads t assignment.expression → s.files.Avoids (plan.aside files) path)
    (hbinds : ∀ given after, from? s ((plan.tracing false).assign assignment) = (.ok given, after) →
      ∀ path, given.value.file? = some path →
        ¬ s.files.target (plan.aside files) <+: s.files.target path) :
    Run.Agree (InStep plan files) Fault.IsQuiet Eq s t ((plan.tracing false).assign assignment)
      ((plan.tracing true).assign assignment) := by
  have hstoring := agree_storing_tracing hdebug h hreads
  rw [assign_eq, assign_eq]
  refine .bind_of_eq_ok hstoring ?_
  rintro binding _ s' t' hstored - ⟨rfl, hname⟩ h'
  have hfound : (bound s' binding).table.get? assignment.name =
      some (VariableTable.released s'.files (s'.table.kept binding)) := by
    rw [get?_bound, hname, if_pos rfl]
  have hassigned : from? s ((plan.tracing false).assign assignment) =
      (.ok (VariableTable.released s'.files (s'.table.kept binding)), bound s' binding) := by
    rw [assign_eq]
    refine from?_bind_eq_ok.mpr ⟨binding, s', hstored, ?_⟩
    rw [from?_bind, from?_get]
    dsimp only
    rw [from?_bind, from?_set]
    dsimp only
    rw [hfound]
    rfl
  obtain ⟨assigned⟩ := nonempty_assigned_of_assign_eq_ok hsettled.calm hassigned
  have hbound : InStep plan files (bound s' binding) (bound t' binding) := by
    have hcurrent : s'.files.current = s.files.current := h'.current.trans h.current.symm
    refine h'.bind (assigned.settled hsettled) fun path hpath => ?_
    rw [FileTree.target_congr hcurrent, FileTree.target_congr hcurrent]
    refine hbinds _ _ hassigned path ?_
    rw [VariableTable.file?_released, VariableTable.file?_kept, hpath]
  refine .get_bind (.bind (.set hbound) fun _ _ s t _ h => .pure h ?_)
  rw [hbound.beside.table]

end Storing

section Lines

/-- A line keeps out of the directory of the results of parts in two sessions: it looks for no file
there, and the file of what it binds is not there. -/
structure KeepsOut (plan : Plan K V) (files : FileTree) (line : Line) (s t : Session K V S) :
    Prop where
  reads : ∀ assignment, Statement.ofText line.text = .ok (.assign assignment) →
    ∀ path, path ∈ plan.reads s assignment.expression ∨ path ∈ plan.reads t assignment.expression →
      ¬ s.files.target (plan.aside files) <+: s.files.target path
  binds : ∀ binding after, from? s ((plan.tracing false).executeLine line) =
    (.ok (some binding), after) → ∀ path, binding.value.file? = some path →
      ¬ s.files.target (plan.aside files) <+: s.files.target path

/-- Nor does the line look for a file by way of the directory, or of a place on the way to it, while
that is missing. -/
structure Spares (plan : Plan K V) (files : FileTree) (line : Line) (s t : Session K V S) : Prop
    extends KeepsOut plan files line s t where
  passes : ∀ assignment, Statement.ofText line.text = .ok (.assign assignment) →
    ∀ path, path ∈ plan.reads s assignment.expression ∨ path ∈ plan.reads t assignment.expression →
      ∀ place ∈ s.files.trail path, place ∈ s.files.trail (plan.aside files) →
        s.files.node? place ≠ none

/-- A line that spares the directory does the same with tracing and without. -/
theorem agree_executeLine_tracing [LawfulCell S] (hdebug : plan.settings.debug = false)
    (h : InStep plan files s t) (hsettled : Settled s) {line : Line}
    (hspares : Spares plan files line s t) :
    Run.Agree (InStep plan files) Fault.IsQuiet (Option.Rel Eq) s t
      ((plan.tracing false).executeLine line) ((plan.tracing true).executeLine line) := by
  refine agree_executeLine h h.addRecord rfl (fun fault hquiet => ?_)
    fun assignment hstatement => ?_
  · rcases lineFault_eq_or line fault with ⟨reason, rfl, -⟩ | ⟨-, hkind⟩
    · trivial
    · obtain ⟨reason, hreason⟩ := hquiet.exists_eq
      cases hkind.symm.trans (Fault.kind_eq_quietStop_iff.mpr hreason)
  · refine agree_assign_tracing hdebug (h.addRecord _) (hsettled.addRecord _) ?_ ?_
    · rw [addRecord_of_logFile_eq_none h.beside.logFile,
        addRecord_of_logFile_eq_none h.beside.logFile']
      exact fun path hpath => ⟨hspares.reads assignment hstatement path hpath,
        hspares.passes assignment hstatement path hpath⟩
    · intro given after hassign
      have hline := (executeLine_assign_eq_ok hstatement).mpr ⟨given, rfl, hassign⟩
      rw [addRecord_of_logFile_eq_none h.beside.logFile]
      exact hspares.binds given after hline

/-- All lines that a script gets to without and with tracing meet a condition in the sessions before
them. -/
def Plan.Throughout (plan : Plan K V) (files : FileTree) (source : Text)
    (condition : Line → Session K V S → Session K V S → Prop) : Prop :=
  ∀ front line back before before',
    plan.prepareLines files source = .ok (front ++ line :: back) →
    from? (start files) ((plan.tracing false).executeLines front) = (.ok (), before) →
    from? (start files) ((plan.tracing true).executeLines front) = (.ok (), before') →
    condition line before before'

omit [Conversion K V] in
theorem inStep_start (htree : files.IsTree) (plan : Plan K V) :
    InStep (S := S) plan files (start files) (start files) where
  current := rfl
  beside := {
    files := .refl htree _
    table := rfl
    counter := rfl
    logFile := rfl
    logFile' := rfl
    effects := ⟨[], .nil, List.forall_mem_nil _, .start files⟩
    behind := fun binding hbinding grid path hvalue _ => by
      rcases VariableTable.mem_bind hbinding with hnone | rfl
      · cases hnone
      · cases hvalue }

/-- Runs that agree on their lines up to quiet ends agree when both complete. -/
theorem agree_processing {R : Session K V S → Session K V S → Prop} {plan plan' : Plan K V}
    {lines : List Line}
    (hrecord : ∀ {s t} record, R s t → R (s.addRecord record) (t.addRecord record))
    (h : Run.Agree R Fault.IsQuiet (fun _ _ => True) s t (plan.executeLines lines)
      (plan'.executeLines lines)) :
    Run.Agree R (fun _ => False) (fun _ _ => True) s t (processing plan lines)
      (processing plan' lines) := by
  have hending {f : Fault} (after : Session K V S) (hf : ¬ f.IsQuiet) :
      ending after f = (.error f, after) := by
    cases f <;> first | rfl | exact absurd trivial hf
  unfold Run.Agree at h ⊢
  generalize hleft : from? s (plan.executeLines lines) = left,
    hright : from? t (plan'.executeLines lines) = right at h
  cases h with
  | gives _ h =>
      rw [from?_processing_of_executeLines_eq_ok hleft,
        from?_processing_of_executeLines_eq_ok hright]
      exact .gives trivial (hrecord _ h)
  | @fails f g s t h =>
      rw [from?_processing_of_executeLines_eq_error hleft,
        from?_processing_of_executeLines_eq_error hright]
      by_cases hf : f.IsQuiet
      · by_cases hg : g.IsQuiet
        · obtain ⟨reason, rfl⟩ := hf.exists_eq
          obtain ⟨hkind, hst⟩ := h hf hg
          obtain rfl := Fault.kind_eq_quietStop_iff.mp hkind.symm
          exact .gives trivial (hrecord _ hst)
        · rw [hending _ hg]
          exact .of_second id _ _
      · rw [hending _ hf]
        exact .of_first id _ _
  | first hf =>
      rw [from?_processing_of_executeLines_eq_error hleft, hending _ hf]
      exact .of_first id _ _
  | second hg =>
      rw [from?_processing_of_executeLines_eq_error hright, hending _ hg]
      exact .of_second id _ _

/-- Runs without and with tracing that complete leave sessions beside each other, when all lines
spare the directory. -/
theorem agree_run_tracing [LawfulCell S] (hdebug : plan.settings.debug = false)
    (htree : files.IsTree) {source : Text}
    (hspares : plan.Throughout (S := S) files source (Spares plan files)) :
    Run.Agree (S := S) (InStep plan files) (fun _ => False) (fun _ _ => True) (start files)
      (start files) ((plan.tracing false).run source) ((plan.tracing true).run source) := by
  cases hlines : plan.prepareLines files source with
  | error fault =>
      have hrun (on : Bool) : from? (start files : Session K V S) ((plan.tracing on).run source) =
          (.error fault, start files) := from?_run_of_prepareLines_eq_error hlines
      unfold Run.Agree
      rw [hrun]
      exact .of_first id _ _
  | ok lines =>
      have hrun (on : Bool) : from? (start files : Session K V S) ((plan.tracing on).run source) =
          from? (start files) (processing (plan.tracing on) lines) :=
        from?_run_of_debug_eq_false hdebug hlines
      unfold Run.Agree
      rw [hrun, hrun]
      refine agree_processing (fun record h => h.addRecord record) ?_
      refine agree_executeLines (Q := Option.Rel Eq) (inStep_start htree plan) ?_
      rintro front line back before before' rfl hfront hfront' h
      have hbegun : Begun (start files : Session K V S) := begun_start files
      have hsettled := (Reached.begin hbegun).executeLines hfront
      exact agree_executeLine_tracing hdebug h hsettled.settled
        (hspares front line back before before' hlines hfront hfront')

omit [Coordinate K] [Number V] [Conversion K V] in
theorem isFileName_of_plain {expression : Text}
    (hsuffix : Text.endsCaseless idfSuffix expression = true)
    (hplain : expression.any isExpressionChar = false) (plan : Plan K V) (files : FileTree) :
    plan.isFileName files expression = true := by
  unfold Plan.isFileName
  rw [hsuffix, hplain, Bool.not_false, Bool.or_true, Bool.and_true]

omit [Coordinate K] [Cell S V] [Conversion K V] in
theorem eq_of_mem_reads {expression : Text} {path : Path}
    (hname : plan.isFileName s.files expression = true) (hpath : path ∈ plan.reads s expression) :
    path = plan.settings.resolveInput expression := by
  unfold Plan.reads Plan.references at hpath
  rw [if_pos hname, FileTree.sought, FileTree.sought] at hpath
  rcases List.mem_cons.mp hpath with rfl | hnone
  · rfl
  · split at hnone <;> cases hnone

omit [Coordinate K] [Cell S V] [Conversion K V] in
/-- A line that opens a file by its name looks for this file. -/
theorem eq_of_reads (plan : Plan K V) {line : Line} {other : Assignment} {path : Path}
    (hline : Statement.ofText line.text = .ok (.assign assignment))
    (hsuffix : Text.endsCaseless idfSuffix assignment.expression = true)
    (hplain : assignment.expression.any isExpressionChar = false)
    (hother : Statement.ofText line.text = .ok (.assign other))
    (hpath : path ∈ plan.reads s other.expression ∨ path ∈ plan.reads t other.expression) :
    path = plan.settings.resolveInput assignment.expression := by
  cases hline.symm.trans hother
  rcases hpath with hpath | hpath
  · exact eq_of_mem_reads (isFileName_of_plain hsuffix hplain plan _) hpath
  · exact eq_of_mem_reads (isFileName_of_plain hsuffix hplain plan _) hpath

/-- The condition on a script of two lines is one on each of them. -/
theorem throughout_pair {source : Text} {condition : Line → Session K V S → Session K V S → Prop}
    {first second : Line} (hlines : plan.prepareLines files source = .ok [first, second])
    (hfirst : condition first (start files) (start files))
    (hsecond : ∀ found found' before before',
      from? (start files) ((plan.tracing false).executeLine first) = (.ok found, before) →
      from? (start files) ((plan.tracing true).executeLine first) = (.ok found', before') →
      condition second before before') : plan.Throughout files source condition := by
  intro front line back before before' hall hfront hfront'
  have heq : [first, second] = front ++ line :: back :=
    Except.ok.inj (hlines.symm.trans hall)
  rcases front with _ | ⟨earlier, _ | ⟨last, more⟩⟩
  · obtain ⟨rfl, -⟩ := List.cons.inj heq
    cases hfront
    cases hfront'
    exact hfirst
  · obtain ⟨rfl, hrest⟩ := List.cons.inj heq
    obtain ⟨rfl, -⟩ := List.cons.inj hrest
    obtain ⟨found, _, hline, hnil⟩ := from?_bind_eq_ok.mp hfront
    obtain ⟨found', _, hline', hnil'⟩ := from?_bind_eq_ok.mp hfront'
    cases hnil
    cases hnil'
    exact hsecond found found' _ _ hline hline'
  · simp at heq

omit [Conversion K V] in
/-- What is bound reads the same in both sessions. -/
theorem InStep.reading_eq (h : InStep plan files s t) {binding : Binding K V S}
    (hbinding : binding ∈ s.table.bindings) :
    binding.value.reading t.files = binding.value.reading s.files := by
  cases hvalue : binding.value with
  | constant c => rfl
  | grid g =>
      unfold Operand.reading
      dsimp only
      rw [h.beside.load_grid_eq hbinding hvalue]

/-- With the same script and files, runs without and with tracing that complete leave the same
bindings, which read the same, the same count of expressions and, outside the directory of the
results of parts, the same files. The run that traces logs and writes the same besides the results
of parts, each of which it writes once, under a number of its own. This takes lines that spare the
directory. -/
theorem run_tracing [LawfulCell S] (hdebug : plan.settings.debug = false) (htree : files.IsTree)
    {source : Text} (hspares : plan.Throughout (S := S) files source (Spares plan files))
    {plain traced : Session K V S}
    (hplain : from? (start files) ((plan.tracing false).run source) = (.ok (), plain))
    (htraced : from? (start files) ((plan.tracing true).run source) = (.ok (), traced)) :
    traced.table = plain.table ∧ traced.counter = plain.counter ∧
      (∀ binding ∈ plain.table.bindings,
        binding.value.reading traced.files = binding.value.reading plain.files) ∧
      (∀ place, ¬ files.target (plan.aside files) <+: place → ∀ bytes,
        traced.files.node? place = some (.file bytes) ↔
          plain.files.node? place = some (.file bytes)) ∧
      ∃ numbers : List Nat, numbers.Pairwise (· < ·) ∧
        Annotates K V S (plan.aside files) numbers plain.effects traced.effects := by
  have hruns := agree_run_tracing hdebug htree hspares
  unfold Run.Agree at hruns
  rw [hplain, htraced] at hruns
  cases hruns with
  | gives _ h =>
      obtain ⟨numbers, hnumbers, -, heffects⟩ := h.beside.effects
      refine ⟨h.beside.table, h.beside.counter, fun binding => h.reading_eq, ?_, numbers, hnumbers,
        heffects⟩
      intro place hplace bytes
      rw [← FileTree.target_congr h.current] at hplace
      exact h.beside.files.node?_eq_file_iff hplace

end Lines

section Around

/-- Results go to a directory that is not there, and a missing file ends a run quietly. -/
def sidePlan : Plan Float Float where
  settings := { output := some ⟨[], ["out".toList]⟩, quiet := true }

/-- The double of the grid in the file is the result of a part, and its cell size is bound. -/
def sizing : Line := ⟨1, "A = cellsize(B.IDF*2)".toList⟩

def sizingAssignment : Assignment := ⟨none, "A".toList, "cellsize(B.IDF*2)".toList⟩

def sizingPrepared : Prepared := ⟨"cellsize(B.IDF*2)".toList, "cellsize(B.IDF*2)".toList, []⟩

def sizingTerm : Term :=
  .call false "cellsize".toList
    (.more (.join (.token "B.IDF".toList) .multiply (.last (.token "2".toList))) .none)

/-- Behind it the file is opened by its name. -/
def opening : Line := ⟨2, "X = B.IDF".toList⟩

def openingAssignment : Assignment := ⟨none, "X".toList, "B.IDF".toList⟩

def openingScript : Text := "A = cellsize(B.IDF*2)\nX = B.IDF\n".toList

/-- Or it is opened by way of the directory of results. -/
def around : Line := ⟨2, "X = out/../B.IDF".toList⟩

def aroundAssignment : Assignment := ⟨none, "X".toList, "out/../B.IDF".toList⟩

def aroundScript : Text := "A = cellsize(B.IDF*2)\nX = out/../B.IDF\n".toList

theorem spells_sizing : (Chain.last sizingTerm).Spells sizingPrepared.text := by
  have hplain (text : Text) (h : text.all isPlain = true) : IsBody text :=
    .plain (List.all_eq_true.mp h)
  have hfile : IsToken "B.IDF".toList :=
    ⟨by decide, false, _, hplain "B.IDF".toList (by decide), rfl⟩
  have hnumber : IsToken "2".toList :=
    ⟨by decide, false, _, hplain "2".toList (by decide), rfl⟩
  have hdouble : (Chain.join (.token "B.IDF".toList) .multiply (.last (.token "2".toList))).Spells
      ("B.IDF".toList ++ (Operator.multiply.sign ++ "2".toList)) :=
    .join (.token hfile) (fun _ => ⟨by decide, by decide⟩) (.last (.token hnumber))
  have htext : sizingPrepared.text = minus false ++ ("cellsize".toList ++
      '(' :: (("B.IDF".toList ++ (Operator.multiply.sign ++ "2".toList)) ++ [')'])) := by
    decide +kernel
  rw [htext]
  exact .last (.call (by decide) (hplain "cellsize".toList (by decide)) (.last hdouble))

/-- What the first line evaluates, step by step. -/
def sizingRun (settings : Settings Float Float) :
    Run Float Float Float32 (Operand Float Float Float32 × Provenance) := do
  let scope : Scope Float Float := ⟨settings, sizingPrepared⟩
  scope.checkDepth 0
  scope.checkDepth 1
  let left ← scope.resolveToken "B.IDF".toList
  let first ← Scope.link 1 (some .multiply) left
  let right ← scope.resolveToken "2".toList
  let second ← Scope.link 1 none right
  let product ← scope.mergeLinks first .multiply second
  let size ← scope.call .cellSize [product.toPart]
  let result ← Scope.link 0 none size
  return (result.value, if result.value.isConstant then .constant else result.provenance)

theorem evaluate_sizing (settings : Settings Float Float) :
    evaluate settings sizingPrepared = sizingRun settings := by
  have hname : Function.ofName? "cellsize".toList = some .cellSize := by decide
  rw [evaluate_last settings spells_sizing]
  unfold sizingTerm sizingRun
  simp only [Scope.evaluateTerm, Scope.evaluateArguments, Scope.evaluateLinks, bind_assoc,
    pure_bind, hname, Scope.link_bind_merge_pair, Scope.signed]
  rfl

theorem ofText_lines : Statement.ofText sizing.text = .ok (.assign sizingAssignment) ∧
    Statement.ofText opening.text = .ok (.assign openingAssignment) ∧
    Statement.ofText around.text = .ok (.assign aroundAssignment) := by
  decide +kernel

theorem prepareLines_scripts :
    sidePlan.prepareLines oneFile openingScript = .ok [sizing, opening] ∧
      sidePlan.prepareLines oneFile aroundScript = .ok [sizing, around] := by
  decide +kernel

theorem reads_sizing :
    sidePlan.reads (start oneFile : Session Float Float Float32) sizingAssignment.expression =
      [⟨[], ["B.IDF".toList]⟩] := by
  have hname : sidePlan.isFileName (start oneFile : Session Float Float Float32).files
      sizingAssignment.expression = false := by decide
  have hprepare : prepare sizingAssignment.expression
      (start oneFile : Session Float Float Float32).table.namesLongestFirst =
        .ok sizingPrepared := by decide +kernel
  unfold Plan.reads Plan.references
  rw [hname, if_neg Bool.false_ne_true, hprepare]
  dsimp only
  unfold Scope.references
  rw [← spells_sizing.eq_readChain]
  decide +kernel

/-- The first line binds its cell size. The file is opened behind it by its name, and by way of the
directory of results where that was made. -/
theorem exists_sizing (on : Bool) : ∃ binding, ∃ after : Session Float Float Float32,
    from? (start oneFile) ((sidePlan.tracing on).executeLine sizing) = (.ok (some binding), after) ∧
      binding.value.file? = none ∧ after.files.current = oneFile.current ∧
      Run.succeeds after ((sidePlan.tracing on).executeLine opening) (fun found _ =>
        found.all fun opened => opened.value.file? == some ⟨[], ["B.IDF".toList]⟩) ∧
      Run.succeeds after (processing (sidePlan.tracing on) [opening]) (fun _ _ => true) ∧
      (on || breaks after ((sidePlan.tracing on).executeLine around) fun _ _ => true) ∧
      Run.succeeds after (processing (sidePlan.tracing on) [around])
        (fun _ final => (final.table.get? "X".toList).isSome == on) := by
  have hprepare : prepare sizingAssignment.expression ((start oneFile : Session Float Float
      Float32).addRecord (evaluating sizing)).table.namesLongestFirst = .ok sizingPrepared := by
    decide +kernel
  have hname : (sidePlan.tracing on).isFileName ((start oneFile : Session Float Float
      Float32).addRecord (evaluating sizing)).files sizingAssignment.expression = false := by
    cases on <;> decide +kernel
  have hsucceeds : Run.succeeds ((start oneFile : Session Float Float Float32).addRecord
      (evaluating sizing)) ((sidePlan.tracing on).assign sizingAssignment) fun binding after =>
        binding.value.file? == none && after.files.current == oneFile.current &&
        Run.succeeds after ((sidePlan.tracing on).executeLine opening) (fun found _ =>
          found.all fun opened => opened.value.file? == some ⟨[], ["B.IDF".toList]⟩) &&
        Run.succeeds after (processing (sidePlan.tracing on) [opening]) (fun _ _ => true) &&
        (on || breaks after ((sidePlan.tracing on).executeLine around) fun _ _ => true) &&
        Run.succeeds after (processing (sidePlan.tracing on) [around])
          (fun _ final => (final.table.get? "X".toList).isSome == on) := by
    unfold Run.succeeds Plan.assign
    rw [from?_bind, from?_value_of_prepare hname hprepare, evaluate_sizing]
    cases on <;> decide +kernel
  obtain ⟨binding, after, hassign, hcheck⟩ := exists_of_succeeds hsucceeds
  have hline := (executeLine_assign_eq_ok ofText_lines.1).mpr ⟨binding, rfl, hassign⟩
  simp only [Bool.and_eq_true, beq_iff_eq, and_assoc] at hcheck
  exact ⟨binding, after, hline, hcheck⟩

theorem isTree_oneFile : oneFile.IsTree := by
  refine ⟨rfl, fun place hplace => ?_⟩
  have hshort : place.dropLast = [] := by
    unfold FileTree.node? at hplace
    split at hplace
    next hempty => rw [List.isEmpty_iff.mp hempty, List.dropLast_nil]
    next =>
      obtain ⟨entry, hentry⟩ := Option.ne_none_iff_exists'.mp hplace
      obtain ⟨found, hfound, -⟩ := Option.map_eq_some_iff.mp hentry
      have hmem : found ∈ oneFile.entries := List.mem_of_find?_eq_some hfound
      have hname : found.1 = place := by simpa using List.find?_some hfound
      rw [← hname, List.mem_singleton.mp hmem, List.dropLast_singleton]
  rw [hshort]
  rfl

theorem run_of_sizing {on : Bool} {script : Text} {second : Line}
    (hlines : sidePlan.prepareLines oneFile script = .ok [sizing, second])
    {found : Option (Binding Float Float Float32)} {after : Session Float Float Float32}
    (hsizing : from? (start oneFile) ((sidePlan.tracing on).executeLine sizing) =
      (.ok found, after)) :
    from? (start oneFile) ((sidePlan.tracing on).run script) =
      from? after (processing (sidePlan.tracing on) [second]) := by
  have hall : (sidePlan.tracing on).prepareLines (start oneFile : Session Float Float
      Float32).files script = .ok [sizing, second] := hlines
  rw [from?_run_of_debug_eq_false rfl hall, from?_processing_cons hsizing]

theorem spares_sizing :
    Spares (S := Float32) sidePlan oneFile sizing (start oneFile) (start oneFile) := by
  have hpath {assignment : Assignment} {path : Path}
      (hstatement : Statement.ofText sizing.text = .ok (.assign assignment))
      (hreads : path ∈ sidePlan.reads (start oneFile : Session Float Float Float32)
          assignment.expression ∨
        path ∈ sidePlan.reads (start oneFile : Session Float Float Float32)
          assignment.expression) : path = ⟨[], ["B.IDF".toList]⟩ := by
    cases ofText_lines.1.symm.trans hstatement
    rw [or_self, reads_sizing] at hreads
    exact List.mem_singleton.mp hreads
  refine ⟨⟨fun assignment hstatement path hreads => ?_, fun binding after hline path hfile => ?_⟩,
    fun assignment hstatement path hreads => ?_⟩
  · rw [hpath hstatement hreads]
    decide +kernel
  · obtain ⟨bound, _, hsizing, hnone, -⟩ := exists_sizing false
    cases hsizing.symm.trans hline
    cases hnone.symm.trans hfile
  · rw [hpath hstatement hreads]
    decide +kernel

theorem throughout_opening :
    sidePlan.Throughout (S := Float32) oneFile openingScript (Spares sidePlan oneFile) := by
  refine throughout_pair prepareLines_scripts.1 spares_sizing
    fun found found' before before' hline hline' => ?_
  obtain ⟨_, _, hsizing, -, hcurrent, hopening, -⟩ := exists_sizing false
  cases hsizing.symm.trans hline
  have hpath {other : Assignment} {path : Path}
      (hother : Statement.ofText opening.text = .ok (.assign other))
      (hreads : path ∈ sidePlan.reads before other.expression ∨
        path ∈ sidePlan.reads before' other.expression) : path = ⟨[], ["B.IDF".toList]⟩ :=
    eq_of_reads sidePlan ofText_lines.2.1 (by decide) rfl hother
      hreads
  have htarget (path : Path) : before.files.target path = oneFile.target path :=
    FileTree.target_congr hcurrent path
  have htrail (path : Path) : before.files.trail path = oneFile.trail path :=
    FileTree.trail_congr hcurrent path
  have houtside : ¬ oneFile.target (sidePlan.aside oneFile) <+:
      oneFile.target ⟨[], ["B.IDF".toList]⟩ := by decide
  refine ⟨⟨fun other hother path hreads => ?_, fun binding after hline path hfile => ?_⟩,
    fun other hother path hreads place hplace hover => ?_⟩
  · rw [htarget, htarget, hpath hother hreads]
    exact houtside
  · obtain ⟨_, _, hopened, hpath⟩ := exists_of_succeeds hopening
    cases hopened.symm.trans hline
    rw [Option.all_some, beq_iff_eq] at hpath
    cases hpath.symm.trans hfile
    rw [htarget, htarget]
    exact houtside
  · rw [htrail, hpath hother hreads] at hplace
    rw [htrail] at hover
    have hroot : ∀ place ∈ oneFile.trail ⟨[], ["B.IDF".toList]⟩,
        place ∈ oneFile.trail (sidePlan.aside oneFile) → place = [] := by decide
    rw [hroot place hplace hover]
    exact Option.some_ne_none _

/-- The file is opened by its name, which is no way to the directory of results. -/
theorem run_tracing_opening : ∃ plain traced : Session Float Float Float32,
    sidePlan.settings.debug = false ∧ oneFile.IsTree ∧
      sidePlan.Throughout (S := Float32) oneFile openingScript (Spares sidePlan oneFile) ∧
      from? (start oneFile) ((sidePlan.tracing false).run openingScript) = (.ok (), plain) ∧
      from? (start oneFile) ((sidePlan.tracing true).run openingScript) = (.ok (), traced) ∧
      traced.table = plain.table ∧ traced.counter = plain.counter ∧
      (∀ binding ∈ plain.table.bindings,
        binding.value.reading traced.files = binding.value.reading plain.files) ∧
      (∀ place, ¬ oneFile.target (sidePlan.aside oneFile) <+: place → ∀ bytes,
        traced.files.node? place = some (.file bytes) ↔
          plain.files.node? place = some (.file bytes)) ∧
      ∃ numbers : List Nat, numbers.Pairwise (· < ·) ∧
        Annotates Float Float Float32 (sidePlan.aside oneFile) numbers plain.effects
          traced.effects := by
  have hrun (on : Bool) : ∃ final : Session Float Float Float32,
      from? (start oneFile) ((sidePlan.tracing on).run openingScript) = (.ok (), final) := by
    obtain ⟨_, _, hsizing, -, -, -, hopening, -⟩ := exists_sizing on
    obtain ⟨_, final, hfinal, -⟩ := exists_of_succeeds hopening
    exact ⟨final, (run_of_sizing prepareLines_scripts.1 hsizing).trans hfinal⟩
  obtain ⟨plain, hplain⟩ := hrun false
  obtain ⟨traced, htraced⟩ := hrun true
  exact ⟨plain, traced, rfl, isTree_oneFile, throughout_opening, hplain, htraced,
    run_tracing rfl isTree_oneFile throughout_opening hplain htraced⟩

/-- The file is opened by way of the directory of results, which is there only because the result of
a part was written below it. So it is bound with tracing only. -/
theorem tracing_shows_around : ∃ plain traced : Session Float Float Float32,
    sidePlan.settings.debug = false ∧ oneFile.IsTree ∧
      sidePlan.Throughout (S := Float32) oneFile aroundScript (KeepsOut sidePlan oneFile) ∧
      from? (start oneFile) ((sidePlan.tracing false).run aroundScript) = (.ok (), plain) ∧
      from? (start oneFile) ((sidePlan.tracing true).run aroundScript) = (.ok (), traced) ∧
      plain.table.get? "X".toList = none ∧
      ∃ binding, traced.table.get? "X".toList = some binding := by
  have hlines := prepareLines_scripts.2
  have hrun (on : Bool) : ∃ final : Session Float Float Float32,
      from? (start oneFile) ((sidePlan.tracing on).run aroundScript) = (.ok (), final) ∧
        (final.table.get? "X".toList).isSome = on := by
    obtain ⟨_, _, hsizing, -, -, -, -, -, haround⟩ := exists_sizing on
    obtain ⟨_, final, hfinal, hbound⟩ := exists_of_succeeds haround
    exact ⟨final, (run_of_sizing hlines hsizing).trans hfinal, beq_iff_eq.mp hbound⟩
  have hkeeps : sidePlan.Throughout (S := Float32) oneFile aroundScript
      (KeepsOut sidePlan oneFile) := by
    refine throughout_pair hlines spares_sizing.toKeepsOut
      fun found found' before before' hline hline' => ?_
    obtain ⟨_, _, hsizing, -, hcurrent, -, -, hfails, -⟩ := exists_sizing false
    cases hsizing.symm.trans hline
    refine ⟨fun other hother path hreads => ?_, fun binding after hbinds => ?_⟩
    · rw [FileTree.target_congr hcurrent, FileTree.target_congr hcurrent,
        eq_of_reads sidePlan ofText_lines.2.2 (by decide) (by decide)
          hother hreads]
      decide +kernel
    · obtain ⟨_, _, hbreaks, -⟩ := exists_of_breaks hfails
      cases hbreaks.symm.trans hbinds
  obtain ⟨plain, hplain, hnone⟩ := hrun false
  obtain ⟨traced, htraced, hsome⟩ := hrun true
  have hunbound : plain.table.get? "X".toList = none := by simpa using hnone
  exact ⟨plain, traced, rfl, isTree_oneFile, hkeeps, hplain, htraced, hunbound,
    Option.isSome_iff_exists.mp hsome⟩

end Around

end Script

end MapAlgebra
