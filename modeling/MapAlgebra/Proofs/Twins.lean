import MapAlgebra.Proofs.Agreement

/-!
# Where a map is kept

Operators and functions calculate with the cells of their arguments and with their place in model
coordinates. Where an argument is kept makes no difference: what they give is the same, or it is the
argument and kept where that is.
-/

namespace MapAlgebra

variable {K V S : Type}

/-- One map, its cells resident, that is kept at two places. -/
inductive Grid.Twin : Grid K V S → Grid K V S → Prop
  | intro (grid : Grid K V S) (cells : Raster S) (slot slot' : Option Nat) :
      Twin { grid with cells := .resident cells, slot }
        { grid with cells := .resident cells, slot := slot' }

/-- One value to calculate with that is kept at two places. -/
inductive Operand.Twin : Operand K V S → Operand K V S → Prop
  | constant (c : Constant V) (slot slot' : Option Nat) :
      Twin (.constant { c with slot }) (.constant { c with slot := slot' })
  | grid {g g' : Grid K V S} (h : g.Twin g') : Twin (.grid g) (.grid g')

/-- The map of an operand that is none of the constants. -/
def Operand.grid? : Operand K V S → Option (Grid K V S)
  | .grid g => some g
  | .constant _ => none

/-- The number that an operand stands for where a NoData value is asked for. -/
def Operand.asNodata : Operand K V S → V
  | .constant c => c.value
  | .grid g => g.nodata

/-- The value as it is when it is kept nowhere. -/
def Operand.unkept : Operand K V S → Operand K V S
  | .constant c => .constant { c with slot := none }
  | .grid g => .grid { g with slot := none }

theorem Grid.IsNew.twin {grid : Grid K V S} (h : grid.IsNew) : grid.Twin grid := by
  obtain ⟨cells, hcells⟩ := h.resident
  have hsame : { grid with cells := .resident cells, slot := grid.slot } = grid := by
    rw [← hcells]
  exact hsame ▸ Grid.Twin.intro grid cells grid.slot grid.slot

theorem Operand.IsNew.twin {operand : Operand K V S} (h : operand.IsNew) :
    operand.Twin operand := by
  cases operand with
  | constant c => exact .constant c c.slot c.slot
  | grid g => exact .grid (Grid.IsNew.twin h)

/-- What is computed in the same way and just made matches. -/
theorem Matching.of_new {x y : Except Fault (Grid K V S)} (heq : y = x) (h : Gives Grid.IsNew x) :
    Matching Grid.Twin x y := by
  subst heq
  exact .self (h.mono fun _ hnew => hnew.twin)

theorem Traced.Matching.of_new {x y : Traced (Grid K V S)} (heq : y = x)
    (h : Traced.Gives Grid.IsNew x) : Traced.Matching Grid.Twin x y := by
  subst heq
  exact .self (h.mono fun _ hnew => hnew.twin)

namespace Grid.Twin

variable {g g' h h' : Grid K V S}

theorem extent_eq (hg : g.Twin g') : g'.extent = g.extent := by
  cases hg
  rfl

theorem copy (hg : g.Twin g') (name : Text) : Matching Grid.Twin (g.copy name) (g'.copy name) := by
  cases hg
  exact .of_new rfl (isNew_copy _ _)

variable [Coordinate K] [Number V] [Cell S V]

theorem sampleTo (hg : g.Twin g') (hh : h.Twin h') :
    Matching Grid.Twin (g.sampleTo h) (g'.sampleTo h') := by
  cases hg
  cases hh
  exact .of_new rfl (isNew_sampleTo _ _)

omit [Number V] in
theorem enlarge (hg : g.Twin g') (extent : Extent K) :
    Matching Grid.Twin (g.enlarge extent) (g'.enlarge extent) := by
  cases hg
  exact .of_new rfl (isNew_enlarge _ _)

theorem clipOrDummy (hg : g.Twin g') (extent : Extent K) :
    Traced.Matching Grid.Twin (g.clipOrDummy extent) (g'.clipOrDummy extent) := by
  cases hg
  exact .of_new rfl (isNew_clipOrDummy _ _)

omit [Coordinate K] in
theorem roundTo (hg : g.Twin g') (places : Int) :
    Matching Grid.Twin (g.roundTo places) (g'.roundTo places) := by
  cases hg
  exact .of_new rfl (isNew_roundTo _ _)

theorem coarsen (hg : g.Twin g') (cellSize : K) (aggregate : Aggregate) :
    Matching Grid.Twin (g.coarsen cellSize aggregate) (g'.coarsen cellSize aggregate) := by
  cases hg
  exact .of_new rfl (isNew_coarsen _ _ _)

theorem refine [Conversion K V] (hg : g.Twin g') (cellSize : K) (method : Refinement) :
    Matching Grid.Twin (g.refine cellSize method) (g'.refine cellSize method) := by
  cases hg
  exact .of_new rfl (isNew_refine _ _ _)

omit [Coordinate K] in
theorem negate (hg : g.Twin g') : Matching Grid.Twin g.negate g'.negate := by
  cases hg
  exact .of_new rfl (isNew_negate _)

theorem boundingBox (hg : g.Twin g') :
    Matching (Option.Rel Grid.Twin) g.boundingBox g'.boundingBox := by
  have hsame : g'.boundingBox = g.boundingBox := by
    cases hg
    rfl
  rw [hsame]
  refine .self ((isNew_boundingBox g).mono fun found hfound => ?_)
  cases found with
  | none => exact .none
  | some box => exact .some (hfound box rfl).twin

omit [Coordinate K] in
theorem withNodata (hg : g.Twin g') (nodata : V) :
    Matching Grid.Twin (g.withNodata nodata) (g'.withNodata nodata) := by
  have hkept := hg
  cases hg with
  | intro grid cells slot slot' =>
      unfold Grid.withNodata
      dsimp only
      split
      next => exact .ok hkept
      next => exact .of_new rfl (.last fun _ => .pure ⟨⟨_, rfl⟩, rfl, rfl⟩)

theorem apply {a b : Operand K V S} (hg : g.Twin g') (hab : a.Twin b) (op : Operator)
    (reverse : Bool) : Matching Grid.Twin (g.apply op a reverse) (g'.apply op b reverse) := by
  cases hg
  cases hab with
  | constant => exact .of_new rfl (isNew_apply _ _ _ _)
  | grid h =>
      cases h
      exact .of_new rfl (isNew_apply _ _ _ _)

theorem replace {a b : Operand K V S} (hg : g.Twin g') (hh : h.Twin h') (hab : a.Twin b) :
    Matching Grid.Twin (g.replace h (Expression.replacement a))
      (g'.replace h' (Expression.replacement b)) := by
  cases hg
  cases hh
  cases hab with
  | constant => exact .of_new rfl (isNew_replace _ _ _)
  | grid h =>
      cases h
      exact .of_new rfl (isNew_replace _ _ _)

theorem reconcile (hg : g.Twin g') (target : Extent K) (label : String) :
    Traced.Matching Grid.Twin (g.reconcile target label) (g'.reconcile target label) := by
  have hcutTo {grown grown' : Grid K V S} (hgrown : grown.Twin grown') :
      Traced.Matching Grid.Twin (grown.cutTo target label) (grown'.cutTo target label) := by
    unfold Grid.cutTo
    rw [hgrown.extent_eq]
    exact .ite (fun _ => .pure hgrown) fun _ => .record (hgrown.clipOrDummy target)
  rw [Grid.reconcile_eq, Grid.reconcile_eq, hg.extent_eq]
  refine .ite (fun _ => .pure hg) fun _ => .ite (fun _ => hcutTo hg) fun _ => ?_
  exact .record (.bind (.lift (hg.enlarge target)) fun _ _ hgrown => hcutTo hgrown)

/-- Two grids that are the same but for where they are kept are so once their cells are read. -/
theorem load (h : { g' with slot := none } = { g with slot := none }) (files : FileTree) :
    Matching Grid.Twin (g.load files) (g'.load files) := by
  obtain ⟨extent, cellWidth, cellHeight, nodata, substitute, name, path, top, bottom, rows, cols,
    cells, slot⟩ := g
  obtain ⟨_, _, _, _, _, _, _, _, _, _, _, _, slot'⟩ := g'
  cases h
  let loaded (cells : Raster S) : Grid K V S := ⟨extent, cellWidth, cellHeight, nodata, substitute,
    name, path, top, bottom, rows, cols, .resident cells, slot⟩
  cases cells with
  | resident cells => exact .ok (.intro (loaded cells) cells slot slot')
  | onDisk source =>
      unfold Grid.load
      dsimp only
      cases Idf.readCells (K := K) (V := V) (S := S) files source with
      | error fault => exact .error rfl
      | ok cells => exact .ok (.intro (loaded cells) cells slot slot')

theorem write (hg : g.Twin g') (path : Path) (metadata : Option Metadata) :
    g'.write path metadata = g.write path metadata := by
  cases hg
  rfl

end Grid.Twin

namespace Operand.Twin

variable {a a' b b' : Operand K V S}

theorem isConstant_eq (h : a.Twin a') : a'.isConstant = a.isConstant := by
  cases h <;> rfl

theorem nodata_eq (h : a.Twin a') : a'.nodata = a.nodata := by
  cases h with
  | constant => rfl
  | grid h => cases h; rfl

theorem asNodata_eq (h : a.Twin a') : a'.asNodata = a.asNodata := by
  cases h with
  | constant => rfl
  | grid h => cases h; rfl

theorem extent?_eq [Coordinate K] (h : a.Twin a') : a'.extent? = a.extent? := by
  cases h with
  | constant => rfl
  | grid h => cases h; rfl

theorem grid? (h : a.Twin a') : Option.Rel Grid.Twin a.grid? a'.grid? := by
  cases h with
  | constant => exact .none
  | grid h => exact .some h

theorem unkept_eq (h : a.Twin a') : a'.unkept = a.unkept := by
  cases h with
  | constant => rfl
  | grid h => cases h; rfl

theorem substituteNodata (h : a.Twin a') (settings : Settings K V) :
    (Expression.substituteNodata settings a).Twin (Expression.substituteNodata settings a') := by
  cases h with
  | constant c => exact .constant c _ _
  | @grid g g' h =>
      by_cases hcounts : settings.nodataAsValue = true
      · have hcounting (grid : Grid K V S) : Expression.substituteNodata settings (.grid grid) =
            .grid { grid with substitute := some (settings.nodata.getD grid.nodata) } :=
          if_pos hcounts
        rw [hcounting, hcounting]
        cases h with
        | intro grid cells slot slot' =>
            let counting : Grid K V S :=
              { grid with substitute := some (settings.nodata.getD grid.nodata) }
            exact .grid (.intro counting cells slot slot')
      · have hkept (grid : Grid K V S) : Expression.substituteNodata settings (.grid grid) =
            .grid grid := if_neg hcounts
        rw [hkept, hkept]
        exact .grid h

variable [Coordinate K] [Number V] [Cell S V]

omit [Coordinate K] in
theorem negate (h : a.Twin a') : Matching Operand.Twin a.negate a'.negate := by
  cases h with
  | constant c => exact .ok (.constant c.negate none none)
  | grid h => exact .bind h.negate fun _ _ h => .ok (.grid h)

omit [Coordinate K] in
theorem withNodata (h : a.Twin a') (nodata : V) :
    Matching Operand.Twin (a.withNodata nodata) (a'.withNodata nodata) := by
  cases h with
  | constant c slot slot' =>
      refine .ok ?_
      unfold Constant.withNodata
      dsimp only
      split
      next => exact .constant c slot slot'
      next => exact .constant (.of _ nodata) none none
  | grid h => exact .bind (h.withNodata nodata) fun _ _ h => .ok (.grid h)

theorem apply (ha : a.Twin a') (hb : b.Twin b') (op : Operator) (reverse : Bool) :
    Matching Operand.Twin (a.apply op b reverse) (a'.apply op b' reverse) := by
  have hconstant := ha
  cases ha with
  | constant c =>
      cases hb with
      | constant d =>
          have hnew : (Operand.constant (c.apply op d reverse) : Operand K V S).IsNew :=
            Constant.slot_apply op c d reverse
          exact .ok hnew.twin
      | grid hb => exact .bind (hb.apply hconstant op !reverse) fun _ _ h => .ok (.grid h)
  | grid ha => exact .bind (ha.apply hb op reverse) fun _ _ h => .ok (.grid h)

theorem reconcile (h : a.Twin a') (target : Option (Extent K)) (label : String) :
    Traced.Matching Operand.Twin (a.reconcile target label) (a'.reconcile target label) := by
  cases h with
  | constant c => exact .pure (.constant c _ _)
  | grid h =>
      cases target with
      | none => exact .pure (.grid h)
      | some target => exact .bind (h.reconcile target label) fun _ _ h => .pure (.grid h)

omit [Number V] [Cell S V] in
theorem targetExtent_eq {operands operands' : List (Operand K V S)}
    (h : List.Forall₂ Operand.Twin operands operands') (fixed : Option (Extent K))
    (policy : ExtentPolicy) :
    targetExtent fixed policy operands' = targetExtent fixed policy operands := by
  have hextents : operands'.filterMap Operand.extent? = operands.filterMap Operand.extent? := by
    induction h with
    | nil => rfl
    | cons h _ ih => rw [List.filterMap_cons, List.filterMap_cons, h.extent?_eq, ih]
  unfold targetExtent
  rw [hextents]

/-- Two values that are the same but for where they are kept are so once their cells are read. -/
theorem load (h : a'.unkept = a.unkept) (files : FileTree) :
    Matching Operand.Twin (a.load files) (a'.load files) := by
  cases a with
  | constant c =>
      cases a' with
      | grid g => cases h
      | constant d =>
          obtain ⟨value, nodata, name, slot⟩ := c
          obtain ⟨_, _, _, slot'⟩ := d
          cases h
          exact .ok (.constant ⟨value, nodata, name, slot⟩ slot slot')
  | grid g =>
      cases a' with
      | constant d => cases h
      | grid g' =>
          have hsame : { g' with slot := none } = { g with slot := none } := Operand.grid.inj h
          exact .bind (Grid.Twin.load hsame files) fun _ _ h => .ok (.grid h)

end Operand.Twin

namespace Expression

/-- A part of an expression whose value is kept at two places. Its token is the keyword for no data
in both or in none. -/
structure Part.Twin (part part' : Part K V S) : Prop where
  value : part.value.Twin part'.value
  provenance : part'.provenance = part.provenance
  keyword : isNodataToken part'.token = isNodataToken part.token

namespace Part.Twin

variable {part part' : Part K V S} (h : part.Twin part')
include h

theorem grid (prepared prepared' : Prepared) (function : Function) (position : Nat) :
    Matching Grid.Twin (part.grid prepared function position)
      (part'.grid prepared' function position) := by
  obtain ⟨value, provenance, token⟩ := part
  obtain ⟨value', provenance', token'⟩ := part'
  obtain ⟨hvalue, -, -⟩ := h
  unfold Part.grid
  cases hvalue with
  | constant c => exact .error rfl
  | grid h => exact .ok h

theorem constant (prepared prepared' : Prepared) (function : Function) (position : Nat) :
    Matching (fun c c' => c'.value = c.value) (part.constant prepared function position)
      (part'.constant prepared' function position) := by
  obtain ⟨value, provenance, token⟩ := part
  obtain ⟨value', provenance', token'⟩ := part'
  obtain ⟨hvalue, -, -⟩ := h
  unfold Part.constant
  cases hvalue with
  | constant c => exact .ok rfl
  | grid h => exact .error rfl

theorem isNodata_eq [Number V] : part'.isNodata = part.isNodata := by
  obtain ⟨value, provenance, token⟩ := part
  obtain ⟨value', provenance', token'⟩ := part'
  obtain ⟨hvalue, -, hkeyword⟩ := h
  unfold Part.isNodata
  rw [hkeyword]
  cases hvalue <;> rfl

end Part.Twin

variable [Coordinate K] [Number V] [Cell S V]

/-- A combination is the same wherever the operands are kept. -/
theorem combine_twin {scope scope' : Scope K V} {left left' right right' : Part K V S}
    (hsettings : scope'.settings = scope.settings) (hleft : left.Twin left')
    (hright : right.Twin right') (op : Operator) :
    Traced.Matching Operand.Twin (scope.combine left op right)
      (scope'.combine left' op right') := by
  have hbeside {other other' : Operand K V S} (h : other.Twin other') :
      Scope.nodataBeside other' = Scope.nodataBeside other := by
    unfold Scope.nodataBeside
    rw [h.isConstant_eq, h.nodata_eq]
  have ha : (Scope.nodataResolved left right).1.Twin (Scope.nodataResolved left' right').1 := by
    unfold Scope.nodataResolved
    dsimp only
    rw [hleft.keyword, hbeside hright.value]
    split
    next => exact .constant (Scope.nodataBeside right.value) none none
    next => exact hleft.value
  have hb : (Scope.nodataResolved left right).2.Twin (Scope.nodataResolved left' right').2 := by
    show Operand.Twin (if isNodataToken right.token then
        .constant (Scope.nodataBeside (Scope.nodataResolved left right).1) else right.value)
      (if isNodataToken right'.token then
        .constant (Scope.nodataBeside (Scope.nodataResolved left' right').1) else right'.value)
    rw [hright.keyword, hbeside ha]
    split
    next => exact .constant (Scope.nodataBeside (Scope.nodataResolved left right).1) none none
    next => exact hright.value
  unfold Scope.combine
  dsimp only
  rw [hsettings, Operand.Twin.targetExtent_eq (.cons ha (.cons hb .nil))]
  refine .bind (ha.reconcile _ _) fun a a' ha => .bind (hb.reconcile _ _) fun b b' hb => ?_
  exact .lift (ha.apply hb op false)

theorem onto_twin {operand operand' : Operand K V S} {reference reference' : Grid K V S}
    (h : operand.Twin operand') (hreference : reference.Twin reference') :
    Matching Grid.Twin (onto operand reference) (onto operand' reference') := by
  cases h with
  | constant c =>
      cases hreference
      refine .of_new rfl ?_
      show Gives Grid.IsNew (Constant.allocate _ _)
      unfold Constant.allocate
      split
      next => exact .throw _
      next => exact Grid.isNew_of _ _ _ _ _ _ _ _
  | grid h =>
      have hsampled := h.sampleTo hreference
      unfold onto
      dsimp only
      have hgeometry {g g' : Grid K V S} (h : g.Twin g') :
          g'.sameGeometry reference' = g.sameGeometry reference := by
        cases h
        cases hreference
        rfl
      rw [hgeometry h]
      split
      next => exact .ok h
      next => exact hsampled

theorem maskGrid_twin {operand operand' : Operand K V S} {reference reference' : Grid K V S}
    (h : operand.Twin operand') (hreference : reference.Twin reference') :
    Matching Grid.Twin (maskGrid operand reference) (maskGrid operand' reference') := by
  cases h with
  | constant c => exact onto_twin (.constant c _ _) hreference
  | grid h => exact .ok h

omit [Coordinate K] [Cell S V] in
theorem branch_twin {part part' : Part K V S} {value value' : Operand K V S}
    {reference reference' : Grid K V S} (hpart : part.Twin part') (h : value.Twin value')
    (hreference : reference.Twin reference') :
    (branch part value reference).Twin (branch part' value' reference') := by
  cases h with
  | constant c slot slot' =>
      cases hreference
      unfold branch
      dsimp only
      rw [hpart.isNodata_eq]
      split
      next => exact .constant (.of _ _) none none
      next => exact .constant c slot slot'
  | grid h => exact .grid h

/-- A choice among operands that are not all constants. -/
def chooseCells (fixed : Option (Extent K)) (yes no : Part K V S) (c a b : Operand K V S) :
    Traced (Operand K V S) := do
  let target := targetExtent fixed .union [c, a, b]
  let shown := (target.map Extent.toText).getD "None"
  Traced.record .debug s!"if-then-else extent: {shown}"
  let c ← c.reconcile target "condition grid"
  let a ← a.reconcile target "then grid"
  let b ← b.reconcile target "else grid"
  match [c, a, b].filterMap Operand.grid? with
  | [] => return c
  | reference :: _ =>
      let a := branch yes a reference
      let b := branch no b reference
      let base ← liftExcept (onto b reference)
      let base ← liftExcept (base.withNodata reference.nodata)
      let mask ← liftExcept (maskGrid c reference)
      return .grid (← liftExcept (base.replace mask (replacement a)))

theorem chooseCells_twin {yes yes' no no' : Part K V S} {c c' a a' b b' : Operand K V S}
    (hyes : yes.Twin yes') (hno : no.Twin no') (hc : c.Twin c') (ha : a.Twin a') (hb : b.Twin b')
    (fixed : Option (Extent K)) :
    Traced.Matching Operand.Twin (chooseCells fixed yes no c a b)
      (chooseCells fixed yes' no' c' a' b') := by
  unfold chooseCells
  dsimp only
  rw [Operand.Twin.targetExtent_eq (.cons hc (.cons ha (.cons hb .nil)))]
  refine .record (.bind (hc.reconcile _ _) fun c c' hc => ?_)
  refine .bind (ha.reconcile _ _) fun a a' ha => .bind (hb.reconcile _ _) fun b b' hb => ?_
  have hgrids : List.Forall₂ Grid.Twin ([c, a, b].filterMap Operand.grid?)
      ([c', a', b'].filterMap Operand.grid?) :=
    List.rel_filterMap (fun _ _ h => h.grid?) (.cons hc (.cons ha (.cons hb .nil)))
  generalize [c, a, b].filterMap _ = grids, [c', a', b'].filterMap _ = grids' at hgrids ⊢
  cases hgrids with
  | nil => exact .pure hc
  | @cons reference reference' _ _ hreference _ =>
      have hnodata : reference'.nodata = reference.nodata := by
        cases hreference
        rfl
      dsimp only
      rw [hnodata]
      refine .bind (.lift (onto_twin (branch_twin hno hb hreference) hreference))
        fun base base' hbase => .bind (.lift (hbase.withNodata _)) fun base base' hbase => ?_
      refine .bind (.lift (maskGrid_twin hc hreference)) fun mask mask' hmask => ?_
      exact .bind (.lift (hbase.replace hmask (branch_twin hyes ha hreference)))
        fun _ _ h => .pure (.grid h)

theorem choose_twin {condition condition' yes yes' no no' : Part K V S}
    (hcondition : condition.Twin condition') (hyes : yes.Twin yes') (hno : no.Twin no')
    (fixed : Option (Extent K)) :
    Traced.Matching Operand.Twin (choose fixed condition yes no)
      (choose fixed condition' yes' no') := by
  have hcells := chooseCells_twin hyes hno hcondition.value hyes.value hno.value fixed
  obtain ⟨c, provenance, token⟩ := condition
  obtain ⟨c', provenance', token'⟩ := condition'
  have hc : c.Twin c' := hcondition.value
  have ha := hyes.value
  have hb := hno.value
  unfold choose
  dsimp only at hcells ⊢
  generalize hyesValue : yes.value = a, hyesValue' : yes'.value = a',
    hnoValue : no.value = b, hnoValue' : no'.value = b' at ha hb hcells ⊢
  cases hc with
  | grid h => exact hcells
  | constant c =>
      cases ha with
      | grid h => exact hcells
      | constant a =>
          cases hb with
          | grid h => exact hcells
          | constant b =>
              refine .pure ?_
              dsimp only
              split
              next => exact .constant (a.copy) none none
              next => exact .constant (b.copy) none none

theorem extremum_twin {a a' b b' : Operand K V S} (ha : a.Twin a') (hb : b.Twin b')
    (fixed : Option (Extent K)) (function : Function) (op : Operator) :
    Traced.Matching Operand.Twin (extremum fixed function op a b)
      (extremum fixed function op a' b') := by
  have hcells {g g' : Grid K V S} {other other' : Operand K V S} (hg : g.Twin g')
      (hother : other.Twin other') (target : Extent K) : Traced.Matching Operand.Twin
        (do
          let g ← g.reconcile target s!"{function.name} grid 1"
          let other ← other.reconcile (some target) s!"{function.name} grid 2"
          let mask ← liftExcept (g.apply op other)
          return .grid (← liftExcept (g.replace mask (replacement other))))
        (do
          let g ← g'.reconcile target s!"{function.name} grid 1"
          let other ← other'.reconcile (some target) s!"{function.name} grid 2"
          let mask ← liftExcept (g.apply op other)
          return .grid (← liftExcept (g.replace mask (replacement other)))) := by
    refine .bind (hg.reconcile _ _) fun g g' hg => ?_
    refine .bind (hother.reconcile _ _) fun other other' hother => ?_
    refine .bind (.lift (hg.apply hother op false)) fun mask mask' hmask => ?_
    exact .bind (.lift (hg.replace hmask hother)) fun _ _ h => .pure (.grid h)
  unfold extremum
  dsimp only
  cases ha with
  | @grid g g' ha =>
      dsimp only
      rw [ha.extent_eq]
      exact hcells ha hb _
  | constant a slot slot' =>
      cases hb with
      | grid hb =>
          dsimp only
          rw [hb.extent_eq]
          exact hcells hb (.constant a slot slot') _
      | constant b => exact .pure (.constant (.of _) none none)

omit [Number V] [Cell S V] in
theorem fit_twin {operand operand' : Operand K V S} {reference reference' : Part K V S}
    (h : operand.Twin operand') (hreference : reference.Twin reference')
    (prepared prepared' : Prepared) (function : Function)
    {change : Grid K V S → Extent K → Traced (Grid K V S)}
    (hchange : ∀ {g g' : Grid K V S} (extent : Extent K), g.Twin g' →
      Traced.Matching Grid.Twin (change g extent) (change g' extent)) :
    Traced.Matching Operand.Twin (fit prepared function operand reference change)
      (fit prepared' function operand' reference' change) := by
  cases h with
  | constant c => exact .pure (.constant c _ _)
  | @grid g g' h =>
      refine .bind (.lift (hreference.grid prepared prepared' function 2))
        fun other other' hother => ?_
      dsimp only
      rw [h.extent_eq, hother.extent_eq]
      split
      next => exact .bind (.lift (h.copy [])) fun _ _ h => .pure (.grid h)
      next => exact .bind (hchange _ h) fun _ _ h => .pure (.grid h)

variable [Conversion K V]

theorem rescale_twin {g g' : Grid K V S} {size size' : Operand K V S}
    {methods methods' : List (Part K V S)} (hg : g.Twin g') (hsize : size.Twin size')
    (hmethods : List.Forall₂ Part.Twin methods methods') (prepared prepared' : Prepared) :
    Traced.Matching Operand.Twin (rescale prepared g size methods)
      (rescale prepared' g' size' methods') := by
  have hwidth : g'.cellWidth = g.cellWidth := by
    cases hg
    rfl
  have hname : g'.name = g.name := by
    cases hg
    rfl
  have hsame : rescale prepared g size methods = rescale prepared g size' methods := by
    cases hsize with
    | constant => rfl
    | grid h => cases h; rfl
  rw [hsame]
  unfold rescale
  dsimp only
  rw [hwidth, hname]
  refine .ite (fun _ => .throw_bind rfl) fun _ => ?_
  refine .bind (.mapM (Q := Eq) (forall₂_zipIdx hmethods 0) ?_) fun indices indices' hindices => ?_
  · rintro ⟨part, index⟩ ⟨part', _⟩ ⟨hpart, rfl⟩
    refine .bind (.lift (hpart.constant prepared prepared' .scale _)) fun c c' hc => ?_
    rw [hc]
    exact .lift (.of_eq rfl)
  obtain rfl : indices = indices' := List.forall₂_eq_eq_eq ▸ hindices
  refine .ite (fun _ => .bind (.lift (hg.copy [])) fun _ _ h => .pure (.grid h)) fun _ => ?_
  refine .ite (fun _ => .record ?_) fun _ => .record ?_
  · split
    next method _ => exact .bind (.lift (hg.refine _ method)) fun _ _ h => .pure (.grid h)
    next => exact .throw rfl
  · split
    next aggregate _ => exact .bind (.lift (hg.coarsen _ aggregate)) fun _ _ h => .pure (.grid h)
    next => exact .throw rfl

theorem scale_twin {part part' size size' : Part K V S} {methods methods' : List (Part K V S)}
    (hpart : part.Twin part') (hsize : size.Twin size')
    (hmethods : List.Forall₂ Part.Twin methods methods') (prepared prepared' : Prepared) :
    Traced.Matching Operand.Twin
      (match part.value with
        | .constant c => pure (.constant c)
        | .grid g => rescale prepared g size.value methods)
      (match part'.value with
        | .constant c => pure (.constant c)
        | .grid g => rescale prepared' g size'.value methods') := by
  have hvalue := hpart.value
  generalize part.value = value, part'.value = value' at hvalue ⊢
  cases hvalue with
  | constant c => exact .pure (.constant c _ _)
  | grid h => exact rescale_twin h hsize.value hmethods prepared prepared'

omit [Conversion K V] in
theorem boundingBox_twin {part part' : Part K V S} (hpart : part.Twin part') :
    Traced.Matching Operand.Twin
      (match part.value with
        | .constant c => pure (.constant c)
        | .grid g => do
            match ← liftExcept g.boundingBox with
            | some box => return .grid box
            | none => throw (.grid .nothingLeft))
      (match part'.value with
        | .constant c => pure (.constant c)
        | .grid g => do
            match ← liftExcept g.boundingBox with
            | some box => return .grid box
            | none => throw (.grid .nothingLeft)) := by
  have hvalue := hpart.value
  generalize part.value = value, part'.value = value' at hvalue ⊢
  cases hvalue with
  | constant c => exact .pure (.constant c _ _)
  | grid h =>
      refine .bind (.lift h.boundingBox) fun box box' hbox => ?_
      cases hbox with
      | none => exact .throw rfl
      | some h => exact .pure (.grid h)

/-- The value of a function is the same wherever the arguments are kept. -/
theorem compute_twin {parts parts' : List (Part K V S)} (h : List.Forall₂ Part.Twin parts parts')
    (fixed : Option (Extent K)) (prepared prepared' : Prepared) (function : Function) :
    Traced.Matching Operand.Twin (function.compute fixed prepared parts)
      (function.compute fixed prepared' parts') := by
  unfold Function.compute
  rw [h.length_eq]
  refine .ite (fun _ => .throw_bind rfl) fun _ => ?_
  -- a list that is too short or too long for the function is refused on both sides
  rcases h with _ | ⟨h₁, _ | ⟨h₂, _ | ⟨h₃, hmore⟩⟩⟩
  · cases function <;> exact .throw rfl
  · cases function with
    | boundingBox => exact boundingBox_twin h₁
    | cellSize =>
        refine .bind (.lift (h₁.grid prepared prepared' .cellSize 1)) fun g g' hg => ?_
        cases hg
        exact .pure (.constant (.of _) none none)
    | _ => exact .throw rfl
  · cases function with
    | minimum => exact extremum_twin h₁.value h₂.value fixed _ _
    | maximum => exact extremum_twin h₁.value h₂.value fixed _ _
    | round =>
        refine .bind (.lift (h₁.grid prepared prepared' .round 1)) fun g g' hg => ?_
        refine .bind (.lift (h₂.constant prepared prepared' .round 2)) fun c c' hc => ?_
        rw [hc]
        refine .bind (.lift (.of_eq rfl)) fun places _ hplaces => ?_
        subst hplaces
        exact .bind (.lift (hg.roundTo places)) fun _ _ h => .pure (.grid h)
    | enlarge =>
        exact fit_twin h₁.value h₂ prepared prepared' .enlarge fun extent hg =>
          .lift (hg.enlarge extent)
    | clip =>
        exact fit_twin h₁.value h₂ prepared prepared' .clip fun extent hg => hg.clipOrDummy extent
    | scale => exact scale_twin h₁ h₂ .nil prepared prepared'
    | nodata =>
        rename_i part part' wanted wanted' _
        have hnodata := h₁.value.withNodata wanted.value.asNodata
        show Traced.Matching _ (liftExcept (part.value.withNodata wanted.value.asNodata))
          (liftExcept (part'.value.withNodata wanted'.value.asNodata))
        rw [h₂.value.asNodata_eq]
        exact .lift hnodata
    | _ => exact .throw rfl
  · cases function with
    | ifThenElse =>
        cases hmore with
        | nil => exact choose_twin h₁ h₂ h₃ fixed
        | cons => exact .throw rfl
    | scale => exact scale_twin h₁ h₂ (.cons h₃ hmore) prepared prepared'
    | _ => exact .throw rfl

end Expression

end MapAlgebra
