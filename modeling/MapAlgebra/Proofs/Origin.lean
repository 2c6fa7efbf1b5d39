import MapAlgebra.Expression.Evaluation
import MapAlgebra.Proofs.Reconciling

/-!
# Where results come from

An operation on grids makes a new grid, with its cells resident, or gives one of its operands back.
-/

namespace MapAlgebra

variable {α β : Type}

/-- What a computation gives, if it gives anything, has a property. -/
def Gives (p : α → Prop) (outcome : Except Fault α) : Prop :=
  ∀ a, outcome = .ok a → p a

namespace Gives

variable {p : α → Prop} {q : β → Prop}

theorem pure {a : α} (h : p a) : Gives p (Pure.pure a) := by
  intro b hb
  cases hb
  exact h

theorem throw (fault : Fault) : Gives p (MonadExcept.throw fault) := by
  intro b hb
  cases hb

theorem bind {step : Except Fault α} {next : α → Except Fault β} (hstep : Gives p step)
    (hnext : ∀ a, p a → Gives q (next a)) : Gives q (step >>= next) := by
  intro b hb
  cases hrun : step with
  | error fault =>
      rw [hrun] at hb
      cases hb
  | ok a =>
      rw [hrun] at hb
      exact hnext a (hstep a hrun) b hb

theorem throw_bind (fault : Fault) (next : α → Except Fault β) :
    Gives q (MonadExcept.throw fault >>= next) :=
  bind (p := fun _ => False) (throw fault) fun _ h => h.elim

/-- The last step of a computation decides what it gives. -/
theorem last {step : Except Fault α} {next : α → Except Fault β} (h : ∀ a, Gives q (next a)) :
    Gives q (step >>= next) :=
  bind (p := fun _ => True) (fun _ _ => trivial) fun a _ => h a

theorem mono {p' : α → Prop} {outcome : Except Fault α} (h : Gives p outcome)
    (hp : ∀ a, p a → p' a) : Gives p' outcome :=
  fun a ha => hp a (h a ha)

end Gives

namespace Traced

/-- What a computation gives has a property, whatever records were made before it. -/
protected def Gives (p : α → Prop) (computation : Traced α) : Prop :=
  ∀ records, MapAlgebra.Gives p (computation.run.run records).1

namespace Gives

variable {p : α → Prop} {q : β → Prop}

theorem pure {a : α} (h : p a) : Traced.Gives p (Pure.pure a) :=
  fun _ => MapAlgebra.Gives.pure h

theorem throw (fault : Fault) : Traced.Gives p (MonadExcept.throw fault) :=
  fun _ => MapAlgebra.Gives.throw fault

theorem lift {outcome : Except Fault α} (h : MapAlgebra.Gives p outcome) :
    Traced.Gives p (liftExcept outcome) := by
  intro records
  cases outcome with
  | error fault => exact MapAlgebra.Gives.throw fault
  | ok a => exact MapAlgebra.Gives.pure (h a rfl)

theorem mono {p' : α → Prop} {computation : Traced α} (h : Traced.Gives p computation)
    (hp : ∀ a, p a → p' a) : Traced.Gives p' computation :=
  fun records => (h records).mono hp

theorem bind {step : Traced α} {next : α → Traced β} (hstep : Traced.Gives p step)
    (hnext : ∀ a, p a → Traced.Gives q (next a)) : Traced.Gives q (step >>= next) := by
  intro records b hb
  rw [ExceptT.run_bind, StateT.run_bind] at hb
  rcases hrun : step.run.run records with ⟨_ | a, between⟩
  · rw [hrun] at hb
    cases hb
  · rw [hrun] at hb
    exact hnext a (hstep records a (by rw [hrun])) between b hb

/-- The last step of a computation decides what it gives. -/
theorem last {step : Traced α} {next : α → Traced β} (h : ∀ a, Traced.Gives q (next a)) :
    Traced.Gives q (step >>= next) :=
  bind (p := fun _ => True) (fun _ _ _ => trivial) fun a _ => h a

theorem throw_bind (fault : Fault) (next : α → Traced β) :
    Traced.Gives q (MonadExcept.throw fault >>= next) :=
  bind (p := fun _ => False) (throw fault) fun _ h => h.elim

/-- A step that is taken on a condition. -/
theorem optional {condition : Prop} [Decidable condition] {step : Traced Unit}
    {next : Unit → Traced β} (h : ∀ u, Traced.Gives q (next u)) :
    Traced.Gives q (if condition then step >>= next else next ()) := by
  split
  · exact last h
  · exact h ()

theorem ite {condition : Prop} [Decidable condition] {first second : Traced α}
    (hfirst : Traced.Gives p first) (hsecond : Traced.Gives p second) :
    Traced.Gives p (if condition then first else second) := by
  split
  · exact hfirst
  · exact hsecond

end Gives

/-- A computation gives a result with a property, whatever records were made before it. -/
protected def Succeeds (p : α → Prop) (computation : Traced α) : Prop :=
  ∀ records, ∃ a later, computation.run.run records = (.ok a, later) ∧ p a

namespace Succeeds

variable {p : α → Prop} {q : β → Prop}

theorem pure {a : α} (h : p a) : Traced.Succeeds p (Pure.pure a) :=
  fun records => ⟨a, records, rfl, h⟩

theorem lift {outcome : Except Fault α} {a : α} (houtcome : outcome = .ok a) (h : p a) :
    Traced.Succeeds p (liftExcept outcome) := by
  subst houtcome
  exact pure h

theorem bind {step : Traced α} {next : α → Traced β} (hstep : Traced.Succeeds p step)
    (hnext : ∀ a, p a → Traced.Succeeds q (next a)) : Traced.Succeeds q (step >>= next) := by
  intro records
  obtain ⟨a, between, hrun, ha⟩ := hstep records
  obtain ⟨b, later, hlater, hb⟩ := hnext a ha between
  exact ⟨b, later, by rw [ExceptT.run_bind, StateT.run_bind, hrun]; exact hlater, hb⟩

/-- A step whose result is known leaves the rest of the computation. -/
theorem lift_bind {outcome : Except Fault α} {a : α} {next : α → Traced β}
    (houtcome : outcome = .ok a) (hnext : Traced.Succeeds q (next a)) :
    Traced.Succeeds q (liftExcept outcome >>= next) :=
  bind (p := (· = a)) (lift houtcome rfl) fun _ hfound => hfound ▸ hnext

theorem mono {p' : α → Prop} {computation : Traced α} (h : Traced.Succeeds p computation)
    (hp : ∀ a, p a → p' a) : Traced.Succeeds p' computation := by
  intro records
  obtain ⟨a, later, hrun, ha⟩ := h records
  exact ⟨a, later, hrun, hp a ha⟩

theorem gives {computation : Traced α} (h : Traced.Succeeds p computation) :
    Traced.Gives p computation := by
  intro records a ha
  obtain ⟨b, later, hrun, hb⟩ := h records
  rw [hrun] at ha
  cases ha
  exact hb

theorem record (level : Level) (text : String) :
    Traced.Succeeds (fun _ => True) (Traced.record level text) :=
  fun records => ⟨(), records ++ [⟨level, text⟩], rfl, trivial⟩

/-- A record that is made on a condition. -/
theorem optional {condition : Prop} [Decidable condition] {level : Level} {text : String}
    {next : Unit → Traced β} (h : ∀ u, Traced.Succeeds q (next u)) :
    Traced.Succeeds q (if condition then Traced.record level text >>= next else next ()) := by
  split
  · exact (record level text).bind fun u _ => h u
  · exact h ()

end Succeeds

end Traced

variable {K V S : Type}

/-- A grid that was just made: its cells are resident, no file is behind it and it is kept
nowhere. -/
structure Grid.IsNew (grid : Grid K V S) : Prop where
  resident : ∃ cells, grid.cells = .resident cells
  path : grid.path = none
  slot : grid.slot = none

/-- A grid that was just made, or a constant that is kept nowhere. -/
def Operand.IsNew : Operand K V S → Prop
  | .constant c => c.slot = none
  | .grid g => g.IsNew

/-- A grid that was just opened: its cells are in the file behind it, which is there, and it is kept
nowhere. -/
structure Grid.IsOpened (files : FileTree) (path : Path) (grid : Grid K V S) : Prop where
  onDisk : grid.cells = .onDisk path
  behind : grid.path = some path
  slot : grid.slot = none
  exists_read : ∃ bytes, files.read path = .ok bytes

theorem Operand.IsNew.slot_eq {operand : Operand K V S} (h : operand.IsNew) :
    operand.slot = none := by
  cases operand with
  | constant c => exact h
  | grid g => exact h.slot

namespace Grid

theorem isNew_derive (grid : Grid K V S) (cells : Raster S) : (grid.derive cells).IsNew :=
  ⟨⟨cells, rfl⟩, rfl, rfl⟩

theorem isNew_copy (grid : Grid K V S) (name : Text) : Gives Grid.IsNew (grid.copy name) :=
  .last fun cells => .pure ⟨⟨cells, rfl⟩, rfl, rfl⟩

variable [Coordinate K]

theorem isNew_of (extent : Extent K) (cellWidth cellHeight : K) (nodata : V) (cells : Raster S)
    (name : Text) (top bottom : Option V) :
    Gives Grid.IsNew (of extent cellWidth cellHeight nodata cells name top bottom) := by
  unfold of
  split
  next => exact .throw _
  next => exact .pure ⟨⟨cells, rfl⟩, rfl, rfl⟩

variable [Number V] [Cell S V]

theorem isNew_sampleTo (grid target : Grid K V S) : Gives Grid.IsNew (grid.sampleTo target) :=
  .last fun _ => isNew_of _ _ _ _ _ _ _ _

theorem isNew_apply (grid : Grid K V S) (op : Operator) (other : Operand K V S) (reverse : Bool) :
    Gives Grid.IsNew (grid.apply op other reverse) :=
  .last fun _ => .last fun _ => .last fun _ => .pure (isNew_derive ..)

theorem isNew_replace (grid mask : Grid K V S) (replacement : V ⊕ Grid K V S) :
    Gives Grid.IsNew (grid.replace mask replacement) := by
  unfold replace
  refine .last fun _ => ?_
  extract_lets selector derived
  have hlast (chosen : Option (Raster (Option S))) : Gives Grid.IsNew (derived chosen) := by
    refine .last fun own => ?_
    split
    next => exact .pure (isNew_derive ..)
    next => exact .throw _
  cases replacement with
  | inl number => exact .last hlast
  | inr other => exact .last fun _ => .last hlast

omit [Number V] [Cell S V] in
theorem isNew_clip (grid : Grid K V S) (extent : Extent K) :
    Gives (fun found => ∀ clipped, found = some clipped → clipped.IsNew) (grid.clip extent) := by
  unfold clip
  refine .last fun _ => .last fun _ => .last fun _ => .last fun _ => ?_
  dsimp only
  split
  next => exact .pure fun _ h => nomatch h
  next =>
    refine .last fun _ => .last fun _ => .pure fun clipped h => ?_
    cases h
    exact ⟨⟨_, rfl⟩, rfl, rfl⟩

omit [Number V] in
theorem isNew_enlarge (grid : Grid K V S) (extent : Extent K) :
    Gives Grid.IsNew (grid.enlarge extent) :=
  .last fun _ => .last fun _ => .last fun _ => .last fun _ => .last fun _ => .last fun _ =>
    .pure ⟨⟨_, rfl⟩, rfl, rfl⟩

omit [Cell S V] in
theorem isOpened_read (files : FileTree) (path : Path) :
    Traced.Gives (Grid.IsOpened files path) (Grid.read files path : Traced (Grid K V S)) := by
  have hread : Gives (fun _ => ∃ bytes, files.read path = .ok bytes)
      (Idf.readHeader files path : Except Fault (Idf.Header K V)) := by
    intro header h
    unfold Idf.readHeader at h
    split at h
    next => cases h
    next bytes hbytes => exact ⟨bytes, hbytes⟩
  unfold read
  refine .bind (.lift hread) fun header hexists => ?_
  extract_lets place stem built checked
  refine .optional fun _ => ?_
  unfold checked
  refine .optional fun _ => ?_
  unfold built
  refine .last fun extent => ?_
  dsimp only
  split
  next => exact .throw_bind _ _
  next => exact .pure ⟨rfl, rfl, rfl, hexists⟩

theorem isNew_boundingBox (grid : Grid K V S) :
    Gives (fun found => ∀ box, found = some box → box.IsNew) grid.boundingBox := by
  unfold boundingBox
  refine .last fun _ => ?_
  dsimp only
  split
  next => exact .last fun box => isNew_clip grid box
  next =>
    refine (isNew_copy grid []).bind fun copied hcopied => .pure fun box h => ?_
    cases h
    exact hcopied

omit [Coordinate K] in
theorem isNew_roundTo (grid : Grid K V S) (places : Int) :
    Gives Grid.IsNew (grid.roundTo places) := by
  unfold roundTo
  refine .last fun cells => ?_
  split
  next => exact .throw _
  next => exact .pure (isNew_derive ..)

omit [Coordinate K] in
theorem isNew_negate (grid : Grid K V S) : Gives Grid.IsNew grid.negate :=
  .last fun _ => .pure (isNew_derive ..)

omit [Coordinate K] in
theorem slot_withNodata (grid : Grid K V S) (nodata : V) :
    Gives (fun g => g.slot = none ∨ g.slot = grid.slot) (grid.withNodata nodata) := by
  unfold withNodata
  split
  next => exact .pure (.inr rfl)
  next => exact .last fun _ => .pure (.inl rfl)

theorem gives_clipOrDummy {p : Grid K V S → Prop} {grid : Grid K V S} {extent : Extent K}
    (hclip : Gives (fun found => ∀ clipped, found = some clipped → p clipped) (grid.clip extent))
    (hsole : Traced.Gives p (grid.soleCell extent)) :
    Traced.Gives p (grid.clipOrDummy extent) := by
  rw [clipOrDummy_eq]
  refine .ite hsole (.bind (.lift hclip) fun found hfound => ?_)
  cases found with
  | some clipped => exact .pure (hfound clipped rfl)
  | none => exact hsole

/-- What holds of a grid and is kept when it is enlarged and when it is cut holds of the grid that
is brought to an extent. -/
theorem gives_reconcile {p : Grid K V S → Prop} {grid : Grid K V S} {target : Extent K}
    (hgrid : p grid) (henlarge : Gives p (grid.enlarge target))
    (hcut : ∀ grown : Grid K V S, p grown → Traced.Gives p (grown.clipOrDummy target))
    (label : String) : Traced.Gives p (grid.reconcile target label) := by
  have hcutTo (grown : Grid K V S) (hgrown : p grown) :
      Traced.Gives p (grown.cutTo target label) :=
    .ite (.pure hgrown) (.last fun _ => hcut grown hgrown)
  rw [reconcile_eq]
  exact .ite (.pure hgrid) <| .ite (hcutTo grid hgrid) <|
    .last fun _ => .bind (.lift henlarge) hcutTo

theorem isNew_clipOrDummy (grid : Grid K V S) (extent : Extent K) :
    Traced.Gives Grid.IsNew (grid.clipOrDummy extent) :=
  gives_clipOrDummy (isNew_clip grid extent) <|
    .last fun _ => .last fun _ => .lift (isNew_of _ _ _ _ _ _ _ _)

theorem slot_reconcile (grid : Grid K V S) (target : Extent K) (label : String) :
    Traced.Gives (fun g => g.slot = none ∨ g.slot = grid.slot) (grid.reconcile target label) :=
  gives_reconcile (.inr rfl) ((isNew_enlarge grid target).mono fun _ h => .inl h.slot)
    (fun grown _ => (isNew_clipOrDummy grown target).mono fun _ h => .inl h.slot) label

theorem isNew_coarsen (grid : Grid K V S) (cellSize : K) (aggregate : Aggregate) :
    Gives Grid.IsNew (grid.coarsen cellSize aggregate) := by
  unfold coarsen
  refine .last fun _ => .last fun _ => .last fun _ => .last fun _ => ?_
  dsimp only
  split
  next => exact .throw _
  next => exact isNew_of _ _ _ _ _ _ _ _

variable [Conversion K V]

theorem isNew_refine (grid : Grid K V S) (cellSize : K) (method : Refinement) :
    Gives Grid.IsNew (grid.refine cellSize method) := by
  unfold refine
  refine .last fun _ => .last fun _ => .last fun _ => .last fun _ => .last fun template => ?_
  refine .bind (isNew_sampleTo grid template) fun refined hrefined => ?_
  cases method with
  | block => exact .pure ⟨hrefined.resident, hrefined.path, hrefined.slot⟩
  | divide => exact .last fun _ => .last fun _ => .pure ⟨⟨_, rfl⟩, rfl, rfl⟩

end Grid

theorem Constant.slot_apply [Number V] (op : Operator) (a b : Constant V) (reverse : Bool) :
    (a.apply op b reverse).slot = none := by
  unfold Constant.apply
  split
  next constant hnodata =>
    unfold Constant.nodataOf? at hnodata
    split at hnodata
    next =>
      cases hnodata
      rfl
    next =>
      split at hnodata <;> cases hnodata
      rfl
  next =>
    dsimp only
    split <;> split <;> rfl

namespace Operand

variable [Coordinate K] [Number V] [Cell S V]

omit [Coordinate K] in
theorem isNew_negate (operand : Operand K V S) : Gives Operand.IsNew operand.negate := by
  cases operand with
  | constant c => exact .pure rfl
  | grid g => exact (Grid.isNew_negate g).bind fun _ h => .pure h

omit [Coordinate K] in
theorem isConstant_negate (operand : Operand K V S) :
    Gives (fun value => value.isConstant = operand.isConstant) operand.negate := by
  cases operand with
  | constant c => exact .pure rfl
  | grid g => exact .last fun _ => .pure rfl

omit [Coordinate K] [Cell S V] in
theorem isConstant_copy (operand : Operand K V S) (name : Text) :
    Gives (fun value => value.isConstant = operand.isConstant) (operand.copy name) := by
  cases operand with
  | constant c => exact .pure rfl
  | grid g => exact .last fun _ => .pure rfl

omit [Coordinate K] [Cell S V] in
theorem isNew_copy (operand : Operand K V S) (name : Text) :
    Gives Operand.IsNew (operand.copy name) := by
  cases operand with
  | constant c => exact .pure rfl
  | grid g => exact (Grid.isNew_copy g name).bind fun _ h => .pure h

theorem isNew_apply (op : Operator) (a b : Operand K V S) (reverse : Bool) :
    Gives Operand.IsNew (a.apply op b reverse) := by
  cases a with
  | constant c =>
      cases b with
      | constant d => exact .pure (Constant.slot_apply op c d reverse)
      | grid g => exact (Grid.isNew_apply g op _ _).bind fun _ h => .pure h
  | grid g => exact (Grid.isNew_apply g op _ _).bind fun _ h => .pure h

omit [Coordinate K] in
theorem slot_withNodata (operand : Operand K V S) (nodata : V) :
    Gives (fun value => value.slot = none ∨ value.slot = operand.slot)
      (operand.withNodata nodata) := by
  cases operand with
  | constant c =>
      refine .pure ?_
      show (c.withNodata nodata).slot = none ∨ (c.withNodata nodata).slot = c.slot
      unfold Constant.withNodata
      split
      next => exact .inr rfl
      next => exact .inl rfl
  | grid g => exact (Grid.slot_withNodata g nodata).bind fun _ h => .pure h

theorem slot_reconcile (operand : Operand K V S) (target : Option (Extent K)) (label : String) :
    Traced.Gives (fun value => value.slot = none ∨ value.slot = operand.slot)
      (operand.reconcile target label) := by
  unfold reconcile
  split
  next g target => exact (Grid.slot_reconcile g target label).bind fun _ h => .pure h
  next => exact .pure (.inr rfl)

end Operand

namespace Expression

variable [Coordinate K] [Number V] [Cell S V] [Conversion K V]

omit [Conversion K V] in
theorem isNew_combine (scope : Scope K V) (left : Part K V S) (op : Operator)
    (right : Part K V S) : Traced.Gives Operand.IsNew (scope.combine left op right) :=
  .last fun _ => .last fun _ => .lift (Operand.isNew_apply _ _ _ _)

omit [Conversion K V] in
theorem slot_choose (fixed : Option (Extent K)) (condition yes no : Part K V S) :
    Traced.Gives (fun value => value.slot = none ∨ value.slot = condition.value.slot)
      (choose fixed condition yes no) := by
  unfold choose
  split
  next c a b hc ha hb =>
    refine .pure (.inl ?_)
    split <;> rfl
  next =>
    refine .last fun _ => .bind (Operand.slot_reconcile _ _ _) fun c hc => ?_
    refine .last fun a => .last fun b => ?_
    dsimp only
    split
    next => exact .pure hc
    next =>
      refine .last fun _ => .last fun _ => .last fun _ => ?_
      exact .bind (.lift (Grid.isNew_replace _ _ _)) fun _ h => .pure (.inl h.slot)

omit [Conversion K V] in
theorem isNew_extremum (fixed : Option (Extent K)) (function : Function) (op : Operator)
    (first second : Operand K V S) :
    Traced.Gives Operand.IsNew (extremum fixed function op first second) := by
  unfold extremum
  dsimp only
  split
  next => exact .pure rfl
  next =>
    refine .last fun _ => .last fun _ => .last fun _ => ?_
    exact .bind (.lift (Grid.isNew_replace _ _ _)) fun _ h => .pure h
  next =>
    refine .last fun _ => .last fun _ => .last fun _ => ?_
    exact .bind (.lift (Grid.isNew_replace _ _ _)) fun _ h => .pure h

theorem isNew_rescale (prepared : Prepared) (grid : Grid K V S) (size : Operand K V S)
    (methods : List (Part K V S)) :
    Traced.Gives Operand.IsNew (rescale prepared grid size methods) := by
  unfold rescale
  extract_lets function cellSize source sizes
  split
  next => exact .throw_bind _ _
  next =>
    refine .last fun indices => ?_
    split
    next => exact .bind (.lift (Grid.isNew_copy _ _)) fun _ h => .pure h
    next =>
      split
      next =>
        refine .last fun _ => ?_
        dsimp only
        split
        next => exact .bind (.lift (Grid.isNew_refine _ _ _)) fun _ h => .pure h
        next => exact .throw _
      next =>
        refine .last fun _ => ?_
        dsimp only
        split
        next => exact .bind (.lift (Grid.isNew_coarsen _ _ _)) fun _ h => .pure h
        next => exact .throw _

omit [Number V] [Cell S V] [Conversion K V] in
theorem slot_fit (prepared : Prepared) (function : Function) (operand : Operand K V S)
    (reference : Part K V S) {change : Grid K V S → Extent K → Traced (Grid K V S)}
    (hchange : ∀ g extent, Traced.Gives Grid.IsNew (change g extent)) :
    Traced.Gives (fun value => value.slot = none ∨ value.slot = operand.slot)
      (fit prepared function operand reference change) := by
  cases operand with
  | constant c => exact .pure (.inr rfl)
  | grid g =>
      refine .last fun other => ?_
      dsimp only
      split
      next => exact .bind (.lift (Grid.isNew_copy _ _)) fun _ h => .pure (.inl h.slot)
      next => exact .bind (hchange _ _) fun _ h => .pure (.inl h.slot)

/-- The value of a function is kept nowhere, or it is one of the arguments. -/
theorem slot_compute (fixed : Option (Extent K)) (prepared : Prepared) (function : Function)
    (arguments : List (Part K V S)) :
    Traced.Gives (fun value => value.slot = none ∨ ∃ part ∈ arguments, value.slot = part.value.slot)
      (function.compute fixed prepared arguments) := by
  unfold Function.compute
  -- a number of arguments that is not admitted fails before any of them is looked at
  refine .ite (.throw_bind _ _) ?_
  split
  next condition yes no =>
    exact (slot_choose _ _ _ _).mono fun _ h => h.imp_right fun h => ⟨condition, by simp, h⟩
  next => exact (isNew_extremum _ _ _ _ _).mono fun _ h => .inl h.slot_eq
  next => exact (isNew_extremum _ _ _ _ _).mono fun _ h => .inl h.slot_eq
  next =>
    refine .last fun _ => .last fun _ => .last fun _ => ?_
    exact .bind (.lift (Grid.isNew_roundTo _ _)) fun _ h => .pure (.inl h.slot)
  next part reference =>
    refine (slot_fit _ _ _ _ fun g extent => .lift (Grid.isNew_enlarge g extent)).mono ?_
    exact fun _ h => h.imp_right fun h => ⟨part, by simp, h⟩
  next part reference =>
    refine (slot_fit _ _ _ _ Grid.isNew_clipOrDummy).mono ?_
    exact fun _ h => h.imp_right fun h => ⟨part, by simp, h⟩
  next part size methods =>
    split
    next hvalue => exact .pure (.inr ⟨part, by simp, by rw [hvalue]⟩)
    next => exact (isNew_rescale _ _ _ _).mono fun _ h => .inl h.slot_eq
  next part =>
    split
    next hvalue => exact .pure (.inr ⟨part, by simp, by rw [hvalue]⟩)
    next g hvalue =>
      refine .bind (.lift (Grid.isNew_boundingBox g)) fun found hfound => ?_
      cases found with
      | some box => exact .pure (.inl (hfound box rfl).slot)
      | none => exact .throw _
  next => exact .last fun _ => .pure (.inl rfl)
  next part wanted =>
    refine (Traced.Gives.lift (Operand.slot_withNodata _ _)).mono ?_
    exact fun _ h => h.imp_right fun h => ⟨part, by simp, h⟩
  next => exact .throw _

end Expression

end MapAlgebra
