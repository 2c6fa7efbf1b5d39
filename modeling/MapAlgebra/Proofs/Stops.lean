import MapAlgebra.Proofs.Moves
import MapAlgebra.Proofs.Rereading

/-!
# Where a run stops

A line that fails ends the run. Whatever it did before it failed, it has bound nothing: the bindings
are those of the lines before it, and the lines behind it are not looked at.
-/

namespace MapAlgebra

namespace Session

variable {K V S : Type} [Coordinate K] [Number V] [Cell S V] {settings : Settings K V}
  {before after : Session K V S}

theorem Moves.slotted (h : Moves settings before after) (hslotted : before.table.Slotted) :
    after.table.Slotted :=
  hslotted.of_reloaded h.nextSlot_eq (h.kept hslotted.apart).reloaded

end Session

namespace Script

open Expression Session Run

variable {K V S : Type} [Coordinate K] [Number V] [Cell S V] [Conversion K V]
variable {plan : Plan K V} {assignment : Assignment} {session before after : Session K V S}
  {fault : Fault}

/-- The right side of an assignment has a grid that was computed, and the assignment has it for
itself. -/
inductive Computes (plan : Plan K V) (assignment : Assignment) (before : Session K V S)
    (grid : Grid K V S) (evaluated : Session K V S) : Prop
  | intro {value : Operand K V S} {provenance : Provenance}
      (hvalue : Run.from? before (plan.value assignment.expression) =
        (.ok (value, provenance), evaluated))
      (howned : Plan.unowned evaluated.table assignment.name value = .ok (.grid grid))
      (hcomputed : provenance.isPersisted = false)

theorem Computes.unique {grid grid' : Grid K V S} {evaluated evaluated' : Session K V S}
    (h : Computes plan assignment before grid evaluated)
    (h' : Computes plan assignment before grid' evaluated') :
    grid' = grid ∧ evaluated' = evaluated := by
  obtain ⟨hvalue, howned, -⟩ := h
  obtain ⟨hvalue', howned', -⟩ := h'
  cases hvalue.symm.trans hvalue'
  cases howned.symm.trans howned'
  exact ⟨rfl, rfl⟩

/-- How an assignment fails: there is no grid to be written for it, or the grid cannot be
written. -/
inductive Broken (plan : Plan K V) (assignment : Assignment) (before : Session K V S)
    (fault : Fault) : Session K V S → Prop
  | early {after : Session K V S} (hmoves : Moves plan.settings before after)
      (hfault : fault.IsBare)
      (hnone : ∀ grid evaluated output, Computes plan assignment before grid evaluated →
        rounded plan grid ≠ .ok output) :
      Broken plan assignment before fault after
  | writing {grid output : Grid K V S} {evaluated : Session K V S} {metadata : Option Metadata}
      (hmoves : Moves plan.settings before evaluated)
      (hcomputes : Computes plan assignment before grid evaluated)
      (hrounded : rounded plan grid = .ok output)
      (hwrite : (output.write (plan.resultPath evaluated.files assignment) metadata
        evaluated.files).1 = .error fault) :
      Broken plan assignment before fault { evaluated with
        files := (output.write (plan.resultPath evaluated.files assignment) metadata
          evaluated.files).2 }

namespace Broken

theorem kept (h : Broken plan assignment before fault after)
    (hapart : VariableTable.Apart before.table.bindings) :
    Kept before.table.bindings after.table.bindings := by
  cases h with
  | early hmoves => exact hmoves.kept hapart
  | writing hmoves => exact hmoves.kept hapart

theorem nextSlot_eq (h : Broken plan assignment before fault after) :
    after.table.nextSlot = before.table.nextSlot := by
  cases h with
  | early hmoves => exact hmoves.nextSlot_eq
  | writing hmoves => exact hmoves.nextSlot_eq

theorem isBare (h : Broken plan assignment before fault after) : fault.IsBare := by
  cases h with
  | early _ hfault => exact hfault
  | writing _ _ _ hwrite => exact (Grid.fails_write _ _ _ _ fault hwrite).isBare

end Broken

omit [Conversion K V] in
/-- Saving fails when the grid cannot be rounded, or when it cannot be written. -/
theorem save_eq_error {grid : Grid K V S}
    (h : Run.from? session (plan.save assignment grid) = (.error fault, after)) :
    (rounded plan grid = .error fault ∧ after = session) ∨
      ∃ output metadata, rounded plan grid = .ok output ∧
        (output.write (plan.resultPath session.files assignment) metadata session.files).1 =
          .error fault ∧
        after = { session with files :=
          (output.write (plan.resultPath session.files assignment) metadata session.files).2 } := by
  unfold Plan.save at h
  rcases from?_bind_eq_error.mp h with hget | ⟨_, _, hget, hrounding⟩
  · cases hget
  cases hget
  rcases from?_bind_eq_error.mp hrounding with hlift | ⟨output, _, hlift, hwriting⟩
  · rw [from?_liftExcept] at hlift
    obtain ⟨hrounded, rfl⟩ := Prod.mk.inj hlift
    exact .inl ⟨hrounded, rfl⟩
  obtain ⟨hrounded, rfl⟩ := from?_liftExcept_eq_ok.mp hlift
  rcases from?_bind_eq_error.mp hwriting with hwrite | ⟨_, _, _, hlogging⟩
  · rw [from?_changeFiles] at hwrite
    obtain ⟨hfault, rfl⟩ := Prod.mk.inj hwrite
    exact .inr ⟨output, _, hrounded, hfault, rfl⟩
  · cases hlogging

/-- An assignment that fails has moved the session, and written its result at most. -/
theorem broken_of_assign_eq_error
    (h : Run.from? session (plan.assign assignment) = (.error fault, after)) :
    Broken plan assignment session fault after := by
  have hleads : Leads (Moves plan.settings) _ _ session (plan.value assignment.expression) :=
    leads_value _
  have hmoves := hleads.moves
  unfold Plan.assign at h
  rcases from?_bind_eq_error.mp h with
    hvalue | ⟨⟨value, provenance⟩, evaluated, hvalue, howning⟩
  · rw [hvalue] at hmoves
    refine .early hmoves (hleads.fails fault after hvalue) fun grid evaluated output hcomputes => ?_
    obtain ⟨hother, -, -⟩ := hcomputes
    cases hvalue.symm.trans hother
  rw [hvalue] at hmoves
  rcases from?_bind_eq_error.mp howning with hget | ⟨_, _, hget, hcopying⟩
  · cases hget
  cases hget
  rcases from?_bind_eq_error.mp hcopying with hlift | ⟨owned, _, hlift, hsaving⟩
  · rw [from?_liftExcept] at hlift
    obtain ⟨hunowned, rfl⟩ := Prod.mk.inj hlift
    have hbare : Fails Fault.IsBare (Plan.unowned evaluated.table assignment.name value) :=
      .ite ((Operand.fails_copy value _).mono fun _ h => h.ofFunction.isBare) (.pure _)
    refine .early hmoves (hbare fault hunowned) fun grid other output hcomputes => ?_
    obtain ⟨hother, howned, -⟩ := hcomputes
    cases hvalue.symm.trans hother
    cases hunowned.symm.trans howned
  obtain ⟨howned, rfl⟩ := from?_liftExcept_eq_ok.mp hlift
  -- nothing fails once a value is kept, so it is saving that failed
  cases owned with
  | constant c => cases hsaving
  | grid g =>
      dsimp only at hsaving
      split at hsaving
      next => cases hsaving
      next hcomputed =>
        have hcomputes : Computes plan assignment session g evaluated :=
          ⟨hvalue, howned, by simpa using hcomputed⟩
        rcases from?_bind_eq_error.mp hsaving with hsave | ⟨_, _, _, hbinding⟩
        · rcases save_eq_error hsave with
            ⟨hrounded, rfl⟩ | ⟨output, metadata, hrounded, hwrite, rfl⟩
          · have hround : Fails Fault.OfGrid (rounded plan g) := .ite (g.fails_roundTo _) (.pure _)
            refine .early hmoves (hround fault hrounded).ofFunction.isBare
              fun other evaluated output hother => ?_
            rw [(hcomputes.unique hother).1, hrounded]
            exact nofun
          · exact .writing hmoves hcomputes hrounded hwrite
        · cases hbinding

omit [Conversion K V] in
/-- Saving a grid leaves the table alone and gives no slot. -/
theorem table_of_save_eq_ok {grid : Grid K V S} {saved : Grid K V S × Option Metadata}
    (h : Run.from? session (plan.save assignment grid) = (.ok saved, after)) :
    after.table = session.table ∧ saved.1.slot = grid.slot := by
  unfold Plan.save at h
  obtain ⟨_, _, hget, hrounding⟩ := from?_bind_eq_ok.mp h
  obtain ⟨rfl, rfl⟩ := from?_pure_eq_ok.mp hget
  obtain ⟨output, _, hlift, hwriting⟩ := from?_bind_eq_ok.mp hrounding
  obtain ⟨-, rfl⟩ := from?_liftExcept_eq_ok.mp hlift
  obtain ⟨_, written, hwrite, hlogging⟩ := from?_bind_eq_ok.mp hwriting
  obtain ⟨_, logged, hlog, hreturn⟩ := from?_bind_eq_ok.mp hlogging
  obtain ⟨rfl, rfl⟩ := from?_pure_eq_ok.mp hreturn
  obtain ⟨-, rfl⟩ := from?_changeFiles_eq_ok.mp hwrite
  rw [← from?_record_eq_ok.mp hlog, table_addRecord]
  exact ⟨rfl, rfl⟩

/-- An assignment that succeeds binds a value at a slot of its own. -/
theorem slotted_of_assign_eq_ok (hslotted : session.table.Slotted) {binding : Binding K V S}
    (h : Run.from? session (plan.assign assignment) = (.ok binding, after)) :
    after.table.Slotted := by
  have hleads : Leads (Moves plan.settings) _ _ session (plan.value assignment.expression) :=
    leads_value _
  unfold Plan.assign at h
  obtain ⟨⟨value, provenance⟩, evaluated, hvalue, howning⟩ := from?_bind_eq_ok.mp h
  have hmoves := hleads.moves
  rw [hvalue] at hmoves
  have hevaluated := hmoves.slotted hslotted
  obtain ⟨_, _, hget, hcopying⟩ := from?_bind_eq_ok.mp howning
  obtain ⟨rfl, rfl⟩ := from?_pure_eq_ok.mp hget
  obtain ⟨owned, _, hlift, hsaving⟩ := from?_bind_eq_ok.mp hcopying
  obtain ⟨howned, rfl⟩ := from?_liftExcept_eq_ok.mp hlift
  have hslot : owned.slot = none := slot_unowned (hleads.gives _ _ hvalue) howned
  -- what is bound has no slot before, whether it was written or not
  have hbound {stored : Session K V S} {saved : Operand K V S} {metadata : Option Metadata}
      (htable : stored.table = evaluated.table) (hsaved : saved.slot = none) :
      (bound stored (newBinding assignment provenance saved metadata)).table.Slotted := by
    have hbind : (stored.table.bind (newBinding assignment provenance saved metadata)).Slotted :=
      (htable ▸ hevaluated).bind hsaved
    exact hbind.releaseAll stored.files
  cases owned with
  | constant c =>
      cases hsaving
      exact hbound rfl hslot
  | grid g =>
      dsimp only at hsaving
      split at hsaving
      next =>
        cases hsaving
        exact hbound rfl hslot
      next =>
        obtain ⟨⟨saved, metadata⟩, stored, hsave, hbinding⟩ := from?_bind_eq_ok.mp hsaving
        obtain ⟨htable, hsame⟩ := table_of_save_eq_ok hsave
        cases hbinding
        exact hbound htable (hsame.trans hslot)

/-- A line that is an assignment fails when the assignment does. -/
theorem executeLine_eq_error_of_assign {line : Line} {cause : Fault}
    (hstatement : Statement.ofText line.text = .ok (.assign assignment))
    (h : Run.from? (before.addRecord (evaluating line)) (plan.assign assignment) =
      (.error cause, after)) :
    Run.from? before (plan.executeLine line) = (.error (Plan.lineFault line cause), after) := by
  have hassign : Run.from? before (plan.execute line (.assign assignment)) =
      (.error cause, after) :=
    from?_bind_eq_error.mpr (.inr ⟨(), _, rfl, from?_bind_eq_error.mpr (.inl h)⟩)
  unfold Plan.executeLine
  refine from?_tryCatch_throw_eq_error.mpr ⟨cause, ?_, rfl⟩
  exact from?_bind_eq_error.mpr
    (.inr ⟨_, before, from?_liftExcept_eq_ok.mpr ⟨hstatement, rfl⟩, hassign⟩)

/-- A line that fails is no statement that could be carried out, or an assignment that failed. -/
theorem executeLine_eq_error {line : Line}
    (h : Run.from? before (plan.executeLine line) = (.error fault, after)) :
    ∃ cause, fault = Plan.lineFault line cause ∧ cause.IsBare ∧
      (after = before ∧ (∀ assignment, Statement.ofText line.text ≠ .ok (.assign assignment)) ∨
        ∃ assignment, Statement.ofText line.text = .ok (.assign assignment) ∧
          Broken plan assignment (before.addRecord (evaluating line)) cause after) := by
  unfold Plan.executeLine at h
  obtain ⟨cause, hcause, rfl⟩ := from?_tryCatch_throw_eq_error.mp h
  refine ⟨cause, rfl, ?_⟩
  rcases from?_bind_eq_error.mp hcause with hlift | ⟨statement, _, hlift, hexecuting⟩
  · rw [from?_liftExcept] at hlift
    obtain ⟨hstatement, rfl⟩ := Prod.mk.inj hlift
    refine ⟨fails_ofText line.text cause hstatement, .inl ⟨rfl, ?_⟩⟩
    simp [hstatement]
  obtain ⟨hstatement, rfl⟩ := from?_liftExcept_eq_ok.mp hlift
  rw [hstatement]
  cases statement with
  | blank => cases hexecuting
  | comment text =>
      unfold Plan.execute at hexecuting
      dsimp only at hexecuting
      split at hexecuting <;> cases hexecuting
  | assign assignment =>
      rcases from?_bind_eq_error.mp hexecuting with hlog | ⟨_, logged, hlog, hassigning⟩
      · cases hlog
      rw [← from?_record_eq_ok.mp hlog] at hassigning
      rcases from?_bind_eq_error.mp hassigning with hassign | ⟨_, _, _, hreturn⟩
      · have hbroken := broken_of_assign_eq_error hassign
        exact ⟨hbroken.isBare, .inr ⟨assignment, rfl, hbroken⟩⟩
      · cases hreturn
  | loop head =>
      cases hexecuting
      exact ⟨trivial, .inl ⟨rfl, nofun⟩⟩
  | next name =>
      cases hexecuting
      exact ⟨trivial, .inl ⟨rfl, nofun⟩⟩

/-- The fault of a line tells of it, unless it ends the run quietly. -/
theorem fault_of_executeLine_eq_error {line : Line}
    (h : Run.from? before (plan.executeLine line) = (.error fault, after)) :
    (∃ reason, fault = .quietStop reason) ∨
      ∃ cause, fault = .line line.number (Text.trim line.text) cause := by
  obtain ⟨cause, rfl, hbare, -⟩ := executeLine_eq_error h
  cases cause with
  | quietStop reason => exact .inl ⟨reason, rfl⟩
  | line => cases hbare
  | _ => exact .inr ⟨_, rfl⟩

/-- A line that fails has bound nothing. -/
theorem kept_of_executeLine_eq_error {line : Line}
    (hapart : VariableTable.Apart before.table.bindings)
    (h : Run.from? before (plan.executeLine line) = (.error fault, after)) :
    Kept before.table.bindings after.table.bindings ∧
      after.table.nextSlot = before.table.nextSlot := by
  obtain ⟨cause, -, -, hor⟩ := executeLine_eq_error h
  rcases hor with ⟨rfl, -⟩ | ⟨assignment, -, hbroken⟩
  · exact ⟨.refl _, rfl⟩
  · have hkept := hbroken.kept (by rwa [table_addRecord])
    have hslot := hbroken.nextSlot_eq
    rw [table_addRecord] at hkept hslot
    exact ⟨hkept, hslot⟩

theorem slotted_of_executeLine_eq_ok (hslotted : before.table.Slotted) {line : Line}
    {found : Option (Binding K V S)}
    (h : Run.from? before (plan.executeLine line) = (.ok found, after)) : after.table.Slotted := by
  rcases executeLine_eq_ok h with ⟨assignment, hstatement⟩ | rfl | ⟨record, rfl⟩
  · obtain ⟨binding, -, hassign⟩ := (executeLine_assign_eq_ok hstatement).mp h
    exact slotted_of_assign_eq_ok (by rwa [table_addRecord]) hassign
  · exact hslotted
  · rwa [table_addRecord]

theorem slotted_of_executeLines_eq_ok (hslotted : before.table.Slotted) {lines : List Line}
    {u : Unit} (h : Run.from? before (plan.executeLines lines) = (.ok u, after)) :
    after.table.Slotted := by
  induction lines generalizing before with
  | nil =>
      obtain ⟨-, rfl⟩ := from?_pure_eq_ok.mp h
      exact hslotted
  | cons line rest ih =>
      obtain ⟨found, between, hline, hrest⟩ := from?_bind_eq_ok.mp h
      exact ih (slotted_of_executeLine_eq_ok hslotted hline) hrest

/-- Lines behind one that fails are not carried out. -/
theorem executeLines_of_executeLine_eq_error {done rest : List Line} {line : Line}
    (hdone : Run.from? session (plan.executeLines done) = (.ok (), before))
    (hline : Run.from? before (plan.executeLine line) = (.error fault, after)) :
    Run.from? session (plan.executeLines (done ++ line :: rest)) = (.error fault, after) := by
  induction done generalizing session with
  | nil =>
      obtain ⟨-, rfl⟩ := from?_pure_eq_ok.mp hdone
      exact from?_bind_eq_error.mpr (.inl hline)
  | cons first others ih =>
      obtain ⟨found, between, hfirst, hothers⟩ := from?_bind_eq_ok.mp hdone
      exact from?_bind_eq_error.mpr (.inr ⟨found, between, hfirst, ih hothers⟩)

/-- With debugging on, the lines of a script that comes from a file are written before they are
carried out. -/
def listing (plan : Plan K V) (lines : List Line) : Run K V S Unit :=
  if plan.settings.debug && !plan.source.isEmpty then plan.writeLines lines else pure ()

/-- The bindings were left alone. -/
def SameTable (session after : Session K V S) : Prop :=
  after.table = session.table

instance : Std.Refl (SameTable (K := K) (V := V) (S := S)) := ⟨fun _ => rfl⟩

instance : IsTrans (Session K V S) SameTable := ⟨fun _ _ _ h h' => h'.trans h⟩

omit [Coordinate K] [Number V] [Cell S V] [Conversion K V] in
/-- Writing the lines of a script binds nothing and fails by the files only. -/
theorem leads_listing (lines : List Line) :
    Leads SameTable (fun _ _ => True) (fun fault => ∃ cause, fault = .file cause) session
      (listing plan lines) := by
  have hchange {change : FileTree → Except Fault Unit × FileTree} (session : Session K V S)
      (hfails : ∀ files, Fails (fun fault => ∃ cause, fault = .file cause) (change files).1) :
      Leads SameTable (fun _ _ => True) (fun fault => ∃ cause, fault = .file cause) session
        (Run.changeFiles change) := by
    refine ⟨?_, fun _ _ _ => trivial, fun fault after hfault => ?_⟩
    · rw [from?_changeFiles]
      rfl
    · rw [from?_changeFiles] at hfault
      exact hfails _ fault (congrArg Prod.fst hfault)
  unfold listing
  refine .ite (fun _ => ?_) fun _ => .pure trivial
  unfold Plan.writeLines
  refine .get_bind (.bind (hchange _ fun files => ?_) fun _ made _ _ => ?_)
  · dsimp only
    cases (files.ensureDirectories _).1 with
    | ok => exact .pure _
    | error cause => exact .throw ⟨cause, rfl⟩
  · refine .bind (hchange made fun files => ?_) fun _ written _ _ => ?_
    · split
      next => exact .pure _
      next => exact .throw ⟨_, rfl⟩
    · exact ⟨table_addRecord written _, fun _ _ _ => trivial, nofun⟩

/-- The lines of a script and what follows them. -/
def processing (plan : Plan K V) (lines : List Line) : Run K V S Unit :=
  tryCatch
    (do
      plan.executeLines lines
      Run.record .info "Finished processing script")
    fun
      | .quietStop reason => Run.record .info s!"Stopping quietly: {reason}"
      | fault => throw fault

theorem from?_run {source : Text} {lines : List Line}
    (hlines : plan.prepareLines session.files source = .ok lines) :
    Run.from? session (plan.run source) =
      Run.from? session (listing plan lines >>= fun _ => processing plan lines) := by
  unfold Plan.run listing
  rw [from?_bind, from?_get]
  dsimp only
  rw [from?_bind, from?_liftExcept, hlines]
  dsimp only
  split
  next => rfl
  next => rfl

/-- A script that cannot be unrolled is not begun. -/
theorem from?_run_of_prepareLines_eq_error {source : Text}
    (hlines : plan.prepareLines session.files source = .error fault) :
    Run.from? session (plan.run source) = (.error fault, session) := by
  unfold Plan.run
  rw [from?_bind, from?_get]
  dsimp only
  rw [from?_bind, from?_liftExcept, hlines]

/-- How a run ends with a fault: a quiet end is recorded and is no failure. -/
def ending (after : Session K V S) : Fault → Except Fault Unit × Session K V S
  | .quietStop reason => (.ok (), after.addRecord ⟨.info, s!"Stopping quietly: {reason}"⟩)
  | fault => (.error fault, after)

theorem from?_processing_of_executeLines_eq_error {lines : List Line}
    (hfault : Run.from? session (plan.executeLines lines) = (.error fault, after)) :
    Run.from? session (processing plan lines) = ending after fault := by
  have hlines : Run.from? session (do
      plan.executeLines lines
      Run.record .info "Finished processing script") = (.error fault, after) :=
    from?_bind_eq_error.mpr (.inl hfault)
  unfold processing
  rw [from?_tryCatch, hlines]
  cases fault <;> rfl

theorem from?_processing_of_executeLines_eq_ok {lines : List Line} {u : Unit}
    (hlines : Run.from? session (plan.executeLines lines) = (.ok u, after)) :
    Run.from? session (processing plan lines) =
      (.ok (), after.addRecord ⟨.info, "Finished processing script"⟩) := by
  have hdone : Run.from? session (do
      plan.executeLines lines
      Run.record .info "Finished processing script") =
        (.ok (), after.addRecord ⟨.info, "Finished processing script"⟩) :=
    from?_bind_eq_ok.mpr ⟨u, after, hlines, rfl⟩
  unfold processing
  rw [from?_tryCatch, hdone]

theorem from?_processing_cons {line : Line} {rest : List Line} {found : Option (Binding K V S)}
    (hline : from? session (plan.executeLine line) = (.ok found, after)) :
    from? session (processing plan (line :: rest)) = from? after (processing plan rest) := by
  have hlines : from? session (do
      plan.executeLines (line :: rest)
      Run.record .info "Finished processing script") = from? after (do
      plan.executeLines rest
      Run.record .info "Finished processing script") := by
    rw [Plan.executeLines, bind_assoc, from?_bind, hline]
  unfold processing
  rw [from?_tryCatch, from?_tryCatch, hlines]

/-- Lines are written with the debug option only. -/
theorem from?_run_of_debug_eq_false {source : Text} {lines : List Line}
    (hdebug : plan.settings.debug = false)
    (hlines : plan.prepareLines session.files source = .ok lines) :
    Run.from? session (plan.run source) = Run.from? session (processing plan lines) := by
  have hlisting : listing (S := S) plan lines = pure () := by
    unfold listing
    rw [hdebug]
    rfl
  rw [from?_run hlines, hlisting]
  rfl

/-- A run ends at the first line that fails. The bindings are those that the lines before it left,
each with the same map, and no line behind it changes anything. A fault tells of the number of the
line and of its text with loops unrolled and the environment filled in; a quiet end is none. -/
theorem run_of_executeLine_eq_error {source : Text} {done rest : List Line} {line : Line}
    {opened : Session K V S} (htable : session.table = (start session.files).table)
    (hlines : plan.prepareLines session.files source = .ok (done ++ line :: rest))
    (hopened : Run.from? session (listing plan (done ++ line :: rest)) = (.ok (), opened))
    (hdone : Run.from? opened (plan.executeLines done) = (.ok (), before))
    (hline : Run.from? before (plan.executeLine line) = (.error fault, after)) :
    ∃ outcome final, Run.from? session (plan.run source) = (outcome, final) ∧
      Kept before.table.bindings final.table.bindings ∧
      final.table.nextSlot = before.table.nextSlot ∧
      ((∃ reason, fault = .quietStop reason ∧ outcome = .ok () ∧
          final = after.addRecord ⟨.info, s!"Stopping quietly: {reason}"⟩) ∨
        ∃ cause, fault = .line line.number (Text.trim line.text) cause ∧
          outcome = .error fault ∧ final = after) := by
  have hslotted : before.table.Slotted := by
    have hleads : Leads SameTable _ _ session (listing plan (done ++ line :: rest)) :=
      leads_listing _
    have hopening := hleads.moves
    rw [hopened] at hopening
    refine slotted_of_executeLines_eq_ok ?_ hdone
    rw [hopening, htable]
    exact slotted_start session.files
  obtain ⟨hkept, hslot⟩ := kept_of_executeLine_eq_error hslotted.apart hline
  have hrun : Run.from? session (plan.run source) = ending after fault := by
    rw [from?_run hlines, from?_bind, hopened]
    exact from?_processing_of_executeLines_eq_error
      (executeLines_of_executeLine_eq_error hdone hline)
  rcases fault_of_executeLine_eq_error hline with ⟨reason, rfl⟩ | ⟨cause, rfl⟩
  · refine ⟨_, _, hrun, ?_, ?_, .inl ⟨reason, rfl, rfl, rfl⟩⟩
    · rwa [table_addRecord]
    · rwa [table_addRecord]
  · exact ⟨_, _, hrun, hkept, hslot, .inr ⟨cause, rfl, rfl, rfl⟩⟩

/-- A script whose second line asks for a file that is not there. -/
def missingScript : Text := "A = B.IDF\nC = X.IDF\nD = A\n".toList

theorem run_missingScript :
    let lines : List Line := [⟨1, "A = B.IDF".toList⟩]
    let line : Line := ⟨2, "C = X.IDF".toList⟩
    let rest : List Line := [⟨3, "D = A".toList⟩]
    ∃ (opened before after : Session Float Float Float32) (fault : Fault),
      (start oneFile : Session Float Float Float32).table =
        (start (start oneFile : Session Float Float Float32).files).table ∧
      plainPlan.prepareLines oneFile missingScript = .ok (lines ++ line :: rest) ∧
      Run.from? (start oneFile) (listing plainPlan (lines ++ line :: rest)) = (.ok (), opened) ∧
      Run.from? opened (plainPlan.executeLines lines) = (.ok (), before) ∧
      Run.from? before (plainPlan.executeLine line) = (.error fault, after) ∧
      ∃ outcome final,
        Run.from? (start oneFile) (plainPlan.run missingScript) = (outcome, final) ∧
        Kept before.table.bindings final.table.bindings ∧
        final.table.nextSlot = before.table.nextSlot ∧
        ((∃ reason, fault = .quietStop reason ∧ outcome = .ok () ∧
            final = after.addRecord ⟨.info, s!"Stopping quietly: {reason}"⟩) ∨
          ∃ cause, fault = .line line.number (Text.trim line.text) cause ∧
            outcome = .error fault ∧ final = after) := by
  intro lines line rest
  have hlines : plainPlan.prepareLines oneFile missingScript = .ok (lines ++ line :: rest) := by
    decide +kernel
  have hdone : Run.succeeds (start oneFile : Session Float Float Float32)
      (plainPlan.executeLines lines) fun _ before =>
        !(Run.from? before (plainPlan.executeLine line)).1.isOk := by decide +kernel
  obtain ⟨_, before, hdone, hfails⟩ := Run.exists_of_succeeds hdone
  obtain ⟨fault, after, hline⟩ : ∃ fault after,
      Run.from? before (plainPlan.executeLine line) = (.error fault, after) := by
    rcases hline : Run.from? before (plainPlan.executeLine line) with ⟨fault | found, after⟩
    · exact ⟨fault, after, rfl⟩
    · rw [hline] at hfails
      cases hfails
  exact ⟨start oneFile, before, after, fault, rfl, hlines, rfl, hdone, hline,
    run_of_executeLine_eq_error rfl hlines rfl hdone hline⟩

end Script

end MapAlgebra
