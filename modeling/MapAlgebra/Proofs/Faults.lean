import MapAlgebra.Expression.Evaluation
import MapAlgebra.Script.Statement
import MapAlgebra.Proofs.Reconciling

/-!
# What operations fail by

Operations on grids fail by numbers that cannot be used and by grids that do not fit each other,
functions also by arguments of the wrong kind, and files by what they are or hold. No part of a
script line fails by the fault of a line: that is made of it once the line has failed.
-/

namespace MapAlgebra

variable {α β : Type}

namespace Fault

/-- A fault of the arithmetic or of the grids of an operation. -/
def OfGrid : Fault → Prop
  | .number _ | .grid _ => True
  | _ => False

/-- A fault of the value of a function: of its arguments, or of what it does with grids. How deep an
expression is nested is no matter of a function. -/
def OfFunction : Fault → Prop
  | .expression (.tooDeep _) => False
  | .number _ | .grid _ | .expression _ => True
  | _ => False

/-- A fault of reading a file as a grid. -/
def OfGridFile : Fault → Prop
  | .file _ | .format _ => True
  | .grid (.cornersSwapped ..) | .grid (.cellSize _) | .grid .shapesDiffer => True
  | _ => False

/-- A fault that tells of no line. -/
def IsBare : Fault → Prop
  | .line .. => False
  | _ => True

/-- A fault that tells neither of a line nor of how deep an expression is nested. -/
def IsShallow : Fault → Prop
  | .line .. | .expression (.tooDeep _) => False
  | _ => True

/-- A fault that tells of no line, and of a limit only if something nested so deep goes beyond the
limit. -/
def Within (limit nesting : Int) : Fault → Prop
  | .line .. => False
  | .expression (.tooDeep bound) => bound = limit ∧ limit < nesting
  | _ => True

section Kinds

variable {fault : Fault} {limit nesting deeper : Int}

theorem OfGrid.ofFunction (h : fault.OfGrid) : fault.OfFunction := by
  cases fault <;> trivial

theorem OfFunction.isShallow (h : fault.OfFunction) : fault.IsShallow := by
  cases fault with
  | expression fault => cases fault <;> trivial
  | _ => trivial

theorem OfGridFile.isShallow (h : fault.OfGridFile) : fault.IsShallow := by
  cases fault <;> trivial

theorem IsShallow.within (h : fault.IsShallow) : fault.Within limit nesting := by
  cases fault with
  | expression fault => cases fault <;> trivial
  | _ => trivial

theorem Within.mono (h : fault.Within limit nesting) (hle : nesting ≤ deeper) :
    fault.Within limit deeper := by
  cases fault with
  | expression fault =>
      cases fault with
      | tooDeep bound => exact ⟨h.1, Int.lt_of_lt_of_le h.2 hle⟩
      | _ => trivial
  | _ => trivial

theorem Within.isBare (h : fault.Within limit nesting) : fault.IsBare := by
  cases fault <;> trivial

theorem IsShallow.isBare (h : fault.IsShallow) : fault.IsBare := by
  cases fault <;> trivial

theorem OfFunction.isBare (h : fault.OfFunction) : fault.IsBare :=
  h.isShallow.isBare

theorem OfGridFile.isBare (h : fault.OfGridFile) : fault.IsBare :=
  h.isShallow.isBare

end Kinds

end Fault

/-- What a computation fails by, if it fails, has a property. -/
def Fails (q : Fault → Prop) (outcome : Except Fault α) : Prop :=
  ∀ fault, outcome = .error fault → q fault

namespace Fails

variable {q : Fault → Prop}

theorem pure (a : α) : Fails q (Pure.pure a : Except Fault α) := by
  intro fault h
  cases h

theorem throw {fault : Fault} (h : q fault) :
    Fails q (MonadExcept.throw fault : Except Fault α) := by
  intro other hother
  cases hother
  exact h

theorem bind {step : Except Fault α} {next : α → Except Fault β} (hstep : Fails q step)
    (hnext : ∀ a, Fails q (next a)) : Fails q (step >>= next) := by
  intro fault h
  cases step with
  | error other =>
      cases h
      exact hstep fault rfl
  | ok a => exact hnext a fault h

theorem throw_bind {fault : Fault} (h : q fault) (next : α → Except Fault β) :
    Fails q (MonadExcept.throw fault >>= next) :=
  throw h

theorem number (hq : ∀ fault, q (.number fault)) (outcome : Except NumberFault α) :
    Fails q (liftM outcome : Except Fault α) := by
  cases outcome with
  | error fault => exact throw (hq fault)
  | ok a => exact pure a

theorem map (f : α → β) {outcome : Except Fault α} (h : Fails q outcome) :
    Fails q (outcome.map f) := by
  intro fault hfault
  cases outcome with
  | error other =>
      cases hfault
      exact h fault rfl
  | ok a => cases hfault

theorem mono {p : Fault → Prop} {outcome : Except Fault α} (h : Fails p outcome)
    (hq : ∀ fault, p fault → q fault) : Fails q outcome :=
  fun fault hfault => hq fault (h fault hfault)

theorem ite {condition : Prop} [Decidable condition] {first second : Except Fault α}
    (hfirst : Fails q first) (hsecond : Fails q second) :
    Fails q (if condition then first else second) := by
  split
  · exact hfirst
  · exact hsecond

end Fails

namespace Traced

/-- What a computation fails by, if it fails, has a property, whatever records were made before. -/
protected def Fails (q : Fault → Prop) (computation : Traced α) : Prop :=
  ∀ records, MapAlgebra.Fails q (computation.run.run records).1

namespace Fails

variable {q : Fault → Prop}

theorem pure (a : α) : Traced.Fails q (Pure.pure a) :=
  fun _ => MapAlgebra.Fails.pure a

theorem throw {fault : Fault} (h : q fault) :
    Traced.Fails q (MonadExcept.throw fault : Traced α) :=
  fun _ => MapAlgebra.Fails.throw h

theorem lift {outcome : Except Fault α} (h : MapAlgebra.Fails q outcome) :
    Traced.Fails q (liftExcept outcome) := by
  intro records fault hfault
  cases outcome with
  | error other =>
      cases hfault
      exact h fault rfl
  | ok a => cases hfault

theorem record (level : Level) (text : String) : Traced.Fails q (Traced.record level text) :=
  fun _ => MapAlgebra.Fails.pure ()

theorem bind {step : Traced α} {next : α → Traced β} (hstep : Traced.Fails q step)
    (hnext : ∀ a, Traced.Fails q (next a)) : Traced.Fails q (step >>= next) := by
  intro records fault h
  rw [ExceptT.run_bind, StateT.run_bind] at h
  rcases hrun : step.run.run records with ⟨other | a, between⟩
  · rw [hrun] at h
    cases h
    exact hstep records fault (congrArg Prod.fst hrun)
  · rw [hrun] at h
    exact hnext a between fault h

theorem throw_bind {fault : Fault} (h : q fault) (next : α → Traced β) :
    Traced.Fails q (MonadExcept.throw fault >>= next) :=
  throw h

theorem mono {p : Fault → Prop} {computation : Traced α} (h : Traced.Fails p computation)
    (hq : ∀ fault, p fault → q fault) : Traced.Fails q computation :=
  fun records => (h records).mono hq

theorem ite {condition : Prop} [Decidable condition] {first second : Traced α}
    (hfirst : Traced.Fails q first) (hsecond : Traced.Fails q second) :
    Traced.Fails q (if condition then first else second) := by
  split
  · exact hfirst
  · exact hsecond

theorem mapM {step : α → Traced β} (h : ∀ a, Traced.Fails q (step a)) (list : List α) :
    Traced.Fails q (list.mapM step) := by
  induction list with
  | nil => exact pure _
  | cons a list ih =>
      rw [List.mapM_cons]
      exact bind (h a) fun _ => bind ih fun _ => pure _

/-- A step that is taken on a condition. -/
theorem optional {condition : Prop} [Decidable condition] {step : Traced Unit}
    {next : Unit → Traced β} (hstep : Traced.Fails q step)
    (hnext : ∀ u, Traced.Fails q (next u)) :
    Traced.Fails q (if condition then step >>= next else next ()) := by
  split
  · exact bind hstep hnext
  · exact hnext ()

end Fails

end Traced

variable {K V S : Type}

theorem Extent.fails_of [Coordinate K] {q : Fault → Prop}
    (hq : ∀ a b c d, q (.grid (.cornersSwapped a b c d))) (xll yll xur yur : K) :
    Fails q (Extent.of xll yll xur yur) := by
  unfold Extent.of
  exact .ite (.throw (hq _ _ _ _)) (.pure _)

namespace Grid

theorem fails_values (grid : Grid K V S) : Fails Fault.OfGrid grid.values := by
  unfold values
  split
  next => exact .pure _
  next => exact .throw trivial

theorem fails_copy (grid : Grid K V S) (name : Text) : Fails Fault.OfGrid (grid.copy name) :=
  .bind (fails_values grid) fun _ => .pure _

variable [Coordinate K]

theorem fails_box (xll yll xur yur : K) : Fails Fault.OfGrid (Extent.of xll yll xur yur) :=
  Extent.fails_of (fun _ _ _ _ => trivial) xll yll xur yur

theorem fails_of (extent : Extent K) (cellWidth cellHeight : K) (nodata : V) (cells : Raster S)
    (name : Text) (top bottom : Option V) :
    Fails Fault.OfGrid (of extent cellWidth cellHeight nodata cells name top bottom) := by
  unfold of
  exact .ite (.throw trivial) (.pure _)

theorem fails_ratio (a b : K) : Fails Fault.OfGrid (liftM (Coordinate.ratio a b)) :=
  .number (fun _ => trivial) _

theorem fails_firstCell (distance size : K) : Fails Fault.OfGrid (firstCell distance size) :=
  .bind (fails_ratio _ _) fun _ => .bind (.number (fun _ => trivial) _) fun _ => .pure _

theorem fails_cellsOver (distance size : K) : Fails Fault.OfGrid (cellsOver distance size) :=
  .bind (fails_ratio _ _) fun _ => .number (fun _ => trivial) _

theorem fails_clip (grid : Grid K V S) (extent : Extent K) :
    Fails Fault.OfGrid (grid.clip extent) := by
  unfold clip
  refine .bind (fails_firstCell _ _) fun _ => .bind (fails_cellsOver _ _) fun _ => ?_
  refine .bind (fails_firstCell _ _) fun _ => .bind (fails_cellsOver _ _) fun _ => ?_
  refine .ite (.pure _) ?_
  exact .bind (fails_box _ _ _ _) fun _ => .bind (fails_values grid) fun _ => .pure _

variable [Number V] [Cell S V]

omit [Coordinate K] in
theorem fails_samples (grid : Grid K V S) : Fails Fault.OfGrid grid.samples :=
  .bind (fails_values grid) fun _ => .pure _

theorem fails_sampleOnto (grid target : Grid K V S) :
    Fails Fault.OfGrid (grid.sampleOnto target) := by
  unfold sampleOnto
  refine .bind (fails_samples grid) fun cells => ?_
  split
  next => exact .throw_bind trivial _
  next =>
    dsimp only
    split
    next => exact .pure _
    next => exact .throw trivial

theorem fails_sampleTo (grid target : Grid K V S) : Fails Fault.OfGrid (grid.sampleTo target) :=
  .bind (fails_sampleOnto grid target) fun _ => fails_of _ _ _ _ _ _ _ _

theorem fails_apply (grid : Grid K V S) (op : Operator) (other : Operand K V S) (reverse : Bool) :
    Fails Fault.OfGrid (grid.apply op other reverse) := by
  have hother : Fails Fault.OfGrid (grid.operandSamples other) := by
    cases other with
    | constant c => exact .pure _
    | grid g =>
        exact .ite (.bind (fails_samples g) fun _ => .pure _)
          (.bind (fails_sampleOnto g grid) fun _ => .pure _)
  have hcombine (left : Raster (Sample V)) (right : Sample V ⊕ Raster (Sample V)) :
      Fails Fault.OfGrid (grid.combine op reverse left right) := by
    unfold combine
    dsimp only
    split
    next => exact .pure _
    next => exact .throw trivial
  exact .bind (fails_samples grid) fun _ => .bind hother fun _ => .bind (hcombine _ _) fun _ =>
    .pure _

theorem fails_aligned (grid other : Grid K V S) : Fails Fault.OfGrid (grid.aligned other) := by
  unfold aligned
  exact .ite (fails_values other) (.bind (fails_sampleTo other grid) fun _ => fails_values _)

theorem fails_replace (grid mask : Grid K V S) (replacement : V ⊕ Grid K V S) :
    Fails Fault.OfGrid (grid.replace mask replacement) := by
  unfold replace
  refine .bind (fails_aligned grid mask) fun _ => ?_
  extract_lets selector derived
  have hlast (chosen : Option (Raster (Option S))) : Fails Fault.OfGrid (derived chosen) := by
    refine .bind (fails_values grid) fun own => ?_
    split
    next => exact .pure _
    next => exact .throw trivial
  cases replacement with
  | inl number => exact .bind (.pure _) hlast
  | inr other => exact .bind (fails_aligned grid other) fun _ => .bind (.pure _) hlast

omit [Number V] in
theorem fails_enlarge (grid : Grid K V S) (extent : Extent K) :
    Fails Fault.OfGrid (grid.enlarge extent) := by
  unfold enlarge
  refine .bind (fails_cellsOver _ _) fun _ => .bind (fails_cellsOver _ _) fun _ => ?_
  refine .bind (fails_cellsOver _ _) fun _ => .bind (fails_cellsOver _ _) fun _ => ?_
  exact .bind (fails_values grid) fun _ => .bind (fails_box _ _ _ _) fun _ => .pure _

theorem fails_boundingBox (grid : Grid K V S) : Fails Fault.OfGrid grid.boundingBox := by
  unfold boundingBox
  refine .bind (.bind (fails_values grid) fun _ => .pure _) fun _ => ?_
  dsimp only
  split
  next => exact .bind (fails_box _ _ _ _) fun box => fails_clip grid box
  next => exact .bind (fails_copy grid []) fun _ => .pure _

omit [Coordinate K] in
theorem fails_roundTo (grid : Grid K V S) (places : Int) :
    Fails Fault.OfGrid (grid.roundTo places) := by
  unfold roundTo
  refine .bind (fails_values grid) fun _ => ?_
  split
  next => exact .throw_bind trivial _
  next => exact .pure _

omit [Coordinate K] in
theorem fails_negate (grid : Grid K V S) : Fails Fault.OfGrid grid.negate :=
  .bind (fails_samples grid) fun _ => .pure _

omit [Coordinate K] in
theorem fails_withNodata (grid : Grid K V S) (nodata : V) :
    Fails Fault.OfGrid (grid.withNodata nodata) := by
  unfold withNodata
  exact .ite (.pure _) (.bind (fails_values grid) fun _ => .pure _)

theorem fails_soleCell (grid : Grid K V S) (extent : Extent K) :
    Traced.Fails Fault.OfGrid (grid.soleCell extent) :=
  .bind (.record _ _) fun _ => .bind (.lift (fails_box _ _ _ _)) fun _ =>
    .lift (fails_of _ _ _ _ _ _ _ _)

theorem fails_clipOrDummy (grid : Grid K V S) (extent : Extent K) :
    Traced.Fails Fault.OfGrid (grid.clipOrDummy extent) := by
  rw [clipOrDummy_eq]
  refine Traced.Fails.ite (fails_soleCell grid extent) ?_
  refine .bind (.lift (fails_clip grid extent)) fun found => ?_
  cases found with
  | some clipped => exact .pure _
  | none => exact fails_soleCell grid extent

theorem fails_reconcile (grid : Grid K V S) (target : Extent K) (label : String) :
    Traced.Fails Fault.OfGrid (grid.reconcile target label) := by
  have hcutTo (grown : Grid K V S) : Traced.Fails Fault.OfGrid (grown.cutTo target label) :=
    Traced.Fails.ite (.pure _) (.bind (.record _ _) fun _ => fails_clipOrDummy grown target)
  rw [reconcile_eq]
  refine Traced.Fails.ite (.pure _) (Traced.Fails.ite (hcutTo grid) ?_)
  exact .bind (.record _ _) fun _ => .bind (.lift (fails_enlarge grid target)) hcutTo

theorem fails_coarseCount (distance cellSize : K) :
    Fails Fault.OfGrid (coarseCount distance cellSize) :=
  .bind (fails_cellsOver distance cellSize) fun _ => .pure _

theorem fails_coarsen (grid : Grid K V S) (cellSize : K) (aggregate : Aggregate) :
    Fails Fault.OfGrid (grid.coarsen cellSize aggregate) := by
  unfold coarsen
  refine .bind (fails_coarseCount _ _) fun _ => .bind (fails_coarseCount _ _) fun _ => ?_
  refine .bind (fails_box _ _ _ _) fun _ => .bind (fails_values grid) fun _ => ?_
  dsimp only
  split
  next => exact .throw trivial
  next => exact fails_of _ _ _ _ _ _ _ _

theorem fails_refine [Conversion K V] (grid : Grid K V S) (cellSize : K) (method : Refinement) :
    Fails Fault.OfGrid (grid.refine cellSize method) := by
  unfold refine
  refine .bind (fails_ratio _ _) fun _ => .bind (.number (fun _ => trivial) _) fun _ => ?_
  refine .bind (fails_ratio _ _) fun _ => .bind (.number (fun _ => trivial) _) fun _ => ?_
  refine .bind (fails_of _ _ _ _ _ _ _ _) fun template => ?_
  refine .bind (fails_sampleTo grid template) fun refined => ?_
  cases method with
  | block => exact .pure _
  | divide => exact .bind (fails_ratio _ _) fun _ => .bind (fails_values refined) fun _ => .pure _

end Grid

section Files

variable [Coordinate K] [Number V]

theorem Idf.fails_readHeader (files : FileTree) (path : Path) :
    Fails Fault.OfGridFile (readHeader files path : Except Fault (Header K V)) := by
  unfold readHeader
  split
  next => exact .throw trivial
  next =>
    split
    next => exact .pure _
    next => exact .throw trivial

/-- Reading a grid fails by its header, or by the corners and the cell size that it states. -/
theorem Grid.fails_read_of {q : Fault → Prop} {files : FileTree} {path : Path}
    (hheader : Fails q (Idf.readHeader files path : Except Fault (Idf.Header K V)))
    (hcorners : ∀ a b c d, q (.grid (.cornersSwapped a b c d)))
    (hsize : ∀ size, q (.grid (.cellSize size))) :
    Traced.Fails q (Grid.read files path : Traced (Grid K V S)) := by
  unfold read
  refine .bind (.lift hheader) fun header => ?_
  extract_lets place stem built checked
  refine .optional (.record _ _) fun _ => ?_
  unfold checked
  refine .optional (.record _ _) fun _ => ?_
  unfold built
  refine .bind (.lift (Extent.fails_of hcorners _ _ _ _)) fun _ => ?_
  dsimp only
  split
  next => exact .throw_bind (hsize _) _
  next => exact .pure _

theorem Grid.fails_read (files : FileTree) (path : Path) :
    Traced.Fails Fault.OfGridFile (Grid.read files path : Traced (Grid K V S)) :=
  fails_read_of (Idf.fails_readHeader files path) (fun _ _ _ _ => trivial) fun _ => trivial

variable [Cell S V]

/-- Reading cells fails by the header, by the file, or by the number of the cells. -/
theorem Idf.fails_readCells_of {q : Fault → Prop} {files : FileTree} {path : Path}
    (hheader : Fails q (readHeader files path : Except Fault (Header K V)))
    (hfile : ∀ fault, q (.file fault)) (hshape : q (.grid .shapesDiffer))
    (hcount : ∀ wanted path found, q (.format (.cellCount wanted path found))) :
    Fails q (readCells (K := K) files path : Except Fault (Raster S)) := by
  refine .bind hheader fun header => ?_
  split
  next => exact .throw (hfile _)
  next =>
    unfold decodeCells
    refine .ite (.throw (hcount _ _ _)) (.ite (.throw hshape) ?_)
    dsimp only
    split
    next => exact .pure _
    next => exact .throw hshape

theorem Grid.fails_load (files : FileTree) (grid : Grid K V S) :
    Fails Fault.OfGridFile (grid.load files) := by
  unfold load
  split
  next => exact .pure _
  next path hpath =>
    exact .bind (Idf.fails_readCells_of (Idf.fails_readHeader files path) (fun _ => trivial)
      trivial fun _ _ _ => trivial) fun _ => .pure _

end Files

namespace Operand

variable [Number V] [Cell S V]

omit [Cell S V] in
theorem fails_copy (operand : Operand K V S) (name : Text) :
    Fails Fault.OfGrid (operand.copy name) := by
  cases operand with
  | constant c => exact .pure _
  | grid g => exact .bind (Grid.fails_copy g name) fun _ => .pure _

theorem fails_negate (operand : Operand K V S) : Fails Fault.OfGrid operand.negate := by
  cases operand with
  | constant c => exact .pure _
  | grid g => exact .bind (Grid.fails_negate g) fun _ => .pure _

theorem fails_withNodata (operand : Operand K V S) (nodata : V) :
    Fails Fault.OfGrid (operand.withNodata nodata) := by
  cases operand with
  | constant c => exact .pure _
  | grid g => exact .bind (Grid.fails_withNodata g nodata) fun _ => .pure _

variable [Coordinate K]

theorem fails_load (files : FileTree) (operand : Operand K V S) :
    Fails Fault.OfGridFile (operand.load files) := by
  cases operand with
  | constant c => exact .pure _
  | grid g => exact .bind (Grid.fails_load files g) fun _ => .pure _

theorem fails_apply (op : Operator) (a b : Operand K V S) (reverse : Bool) :
    Fails Fault.OfGrid (a.apply op b reverse) := by
  cases a with
  | constant c =>
      cases b with
      | constant d => exact .pure _
      | grid g => exact .bind (Grid.fails_apply g op _ _) fun _ => .pure _
  | grid g => exact .bind (Grid.fails_apply g op _ _) fun _ => .pure _

theorem fails_reconcile (operand : Operand K V S) (target : Option (Extent K)) (label : String) :
    Traced.Fails Fault.OfGrid (operand.reconcile target label) := by
  unfold reconcile
  split
  next g target => exact .bind (Grid.fails_reconcile g target label) fun _ => .pure _
  next => exact .pure _

end Operand

namespace Expression

variable [Coordinate K] [Number V] [Cell S V]

theorem fails_combine (scope : Scope K V) (left : Part K V S) (op : Operator)
    (right : Part K V S) : Traced.Fails Fault.OfGrid (scope.combine left op right) :=
  .bind (Operand.fails_reconcile _ _ _) fun _ => .bind (Operand.fails_reconcile _ _ _) fun _ =>
    .lift (Operand.fails_apply _ _ _ _)

omit [Number V] in
theorem fails_allocate (c : Constant V) (like : Grid K V S) :
    Fails Fault.OfGrid (c.allocate like) := by
  unfold Constant.allocate
  exact .ite (.throw trivial) (Grid.fails_of _ _ _ _ _ _ _ _)

theorem fails_onto (operand : Operand K V S) (reference : Grid K V S) :
    Fails Fault.OfGrid (onto operand reference) := by
  cases operand with
  | constant c => exact fails_allocate c reference
  | grid g => exact .ite (.pure _) (Grid.fails_sampleTo g reference)

omit [Number V] in
theorem fails_maskGrid (operand : Operand K V S) (reference : Grid K V S) :
    Fails Fault.OfGrid (maskGrid operand reference) := by
  cases operand with
  | constant c => exact fails_allocate c reference
  | grid g => exact .pure _

theorem fails_choose (fixed : Option (Extent K)) (condition yes no : Part K V S) :
    Traced.Fails Fault.OfGrid (choose fixed condition yes no) := by
  unfold choose
  split
  next => exact .pure _
  next =>
    refine .bind (.record _ _) fun _ => ?_
    refine .bind (Operand.fails_reconcile _ _ _) fun _ => ?_
    refine .bind (Operand.fails_reconcile _ _ _) fun _ => ?_
    refine .bind (Operand.fails_reconcile _ _ _) fun _ => ?_
    dsimp only
    split
    next => exact .pure _
    next =>
      refine .bind (.lift (fails_onto _ _)) fun base => ?_
      refine .bind (.lift (Grid.fails_withNodata base _)) fun _ => ?_
      refine .bind (.lift (fails_maskGrid _ _)) fun _ => ?_
      exact .bind (.lift (Grid.fails_replace _ _ _)) fun _ => .pure _

theorem fails_extremum (fixed : Option (Extent K)) (function : Function) (op : Operator)
    (first second : Operand K V S) :
    Traced.Fails Fault.OfGrid (extremum fixed function op first second) := by
  unfold extremum
  extract_lets inCells
  have hcells (g : Grid K V S) (other : Operand K V S) :
      Traced.Fails Fault.OfGrid (inCells g other) := by
    refine .bind (Grid.fails_reconcile _ _ _) fun _ => ?_
    refine .bind (Operand.fails_reconcile _ _ _) fun _ => ?_
    refine .bind (.lift (Grid.fails_apply _ _ _ _)) fun _ => ?_
    exact .bind (.lift (Grid.fails_replace _ _ _)) fun _ => .pure _
  split
  next => exact .pure _
  next => exact hcells _ _
  next => exact hcells _ _

omit [Coordinate K] [Number V] [Cell S V] in
theorem fails_grid (part : Part K V S) (prepared : Prepared) (function : Function)
    (position : Nat) : Fails Fault.OfFunction (part.grid prepared function position) := by
  unfold Part.grid
  split
  next => exact .pure _
  next => exact .throw trivial

omit [Coordinate K] [Number V] [Cell S V] in
theorem fails_constant (part : Part K V S) (prepared : Prepared) (function : Function)
    (position : Nat) : Fails Fault.OfFunction (part.constant prepared function position) := by
  unfold Part.constant
  split
  next => exact .pure _
  next => exact .throw trivial

/-- What an operation on grids fails by, a function can fail by. -/
theorem fails_lift {outcome : Except Fault α} (h : Fails Fault.OfGrid outcome) :
    Traced.Fails Fault.OfFunction (liftExcept outcome) :=
  .lift (h.mono fun _ => Fault.OfGrid.ofFunction)

omit [Number V] [Cell S V] in
theorem fails_fit (prepared : Prepared) (function : Function) (operand : Operand K V S)
    (reference : Part K V S) {change : Grid K V S → Extent K → Traced (Grid K V S)}
    (hchange : ∀ g extent, Traced.Fails Fault.OfGrid (change g extent)) :
    Traced.Fails Fault.OfFunction (fit prepared function operand reference change) := by
  cases operand with
  | constant c => exact .pure _
  | grid g =>
      refine .bind (.lift (fails_grid _ _ _ _)) fun other => ?_
      dsimp only
      split
      next => exact .bind (fails_lift (Grid.fails_copy g [])) fun _ => .pure _
      next =>
        exact .bind ((hchange _ _).mono fun _ => Fault.OfGrid.ofFunction) fun _ => .pure _

variable [Conversion K V]

theorem fails_rescale (prepared : Prepared) (grid : Grid K V S) (size : Operand K V S)
    (methods : List (Part K V S)) :
    Traced.Fails Fault.OfFunction (rescale prepared grid size methods) := by
  unfold rescale
  extract_lets function cellSize source sizes
  refine Traced.Fails.ite (.throw_bind trivial _)
    (.bind (.mapM (fun entry => ?_) _) fun indices => ?_)
  · exact .bind (.lift (fails_constant _ _ _ _)) fun _ => .lift (.number (fun _ => trivial) _)
  refine Traced.Fails.ite (.bind (fails_lift (Grid.fails_copy grid [])) fun _ => .pure _) ?_
  refine Traced.Fails.ite (.bind (.record _ _) fun _ => ?_) (.bind (.record _ _) fun _ => ?_)
  · dsimp only
    split
    next => exact .bind (fails_lift (Grid.fails_refine _ _ _)) fun _ => .pure _
    next => exact .throw trivial
  · dsimp only
    split
    next => exact .bind (fails_lift (Grid.fails_coarsen _ _ _)) fun _ => .pure _
    next => exact .throw trivial

/-- A function fails by its arguments or by what it does with grids. -/
theorem fails_compute (fixed : Option (Extent K)) (prepared : Prepared) (function : Function)
    (arguments : List (Part K V S)) :
    Traced.Fails Fault.OfFunction (function.compute fixed prepared arguments) := by
  have hgrids {value : Traced (Operand K V S)} (h : Traced.Fails Fault.OfGrid value) :
      Traced.Fails Fault.OfFunction value := h.mono fun _ => Fault.OfGrid.ofFunction
  unfold Function.compute
  refine Traced.Fails.ite (.throw_bind trivial _) ?_
  split
  next => exact hgrids (fails_choose _ _ _ _)
  next => exact hgrids (fails_extremum _ _ _ _ _)
  next => exact hgrids (fails_extremum _ _ _ _ _)
  next =>
    refine .bind (.lift (fails_grid _ _ _ _)) fun g => ?_
    refine .bind (.lift (fails_constant _ _ _ _)) fun _ => ?_
    refine .bind (.lift (.number (fun _ => trivial) _)) fun _ => ?_
    exact .bind (fails_lift (Grid.fails_roundTo g _)) fun _ => .pure _
  next => exact fails_fit _ _ _ _ fun g extent => .lift (Grid.fails_enlarge g extent)
  next => exact fails_fit _ _ _ _ Grid.fails_clipOrDummy
  next =>
    split
    next => exact .pure _
    next => exact fails_rescale _ _ _ _
  next =>
    split
    next => exact .pure _
    next g _ =>
      refine .bind (fails_lift (Grid.fails_boundingBox g)) fun found => ?_
      cases found with
      | some box => exact .pure _
      | none => exact .throw trivial
  next => exact .bind (.lift (fails_grid _ _ _ _)) fun _ => .pure _
  next => exact fails_lift (Operand.fails_withNodata _ _)
  next => exact .throw trivial

end Expression

namespace Script

/-- No statement is refused with the fault of a line. -/
theorem fails_ofText (text : Text) : Fails Fault.IsBare (Statement.ofText text) := by
  have hhead (text : Text) : Fails Fault.IsBare (LoopHead.ofText text) := by
    unfold LoopHead.ofText
    split
    next => exact .ite (.throw trivial) (.pure _)
    next =>
      split
      next => exact .throw trivial
      next => exact .ite (.throw trivial) (.pure _)
  unfold Statement.ofText
  refine .ite (.pure _) (.ite (.pure _) (.bind (hhead _) fun head => ?_))
  cases head with
  | some head => exact .pure _
  | none =>
      dsimp only
      split
      next => exact .pure _
      next =>
        refine .ite ?_ (.throw trivial)
        split
        next => exact .pure _
        next => exact .throw trivial

end Script

end MapAlgebra
