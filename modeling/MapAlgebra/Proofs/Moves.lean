import Mathlib.Logic.Relation
import MapAlgebra.Proofs.Bindings
import MapAlgebra.Proofs.Faults
import MapAlgebra.Proofs.Meaning
import MapAlgebra.Proofs.Origin
import MapAlgebra.Proofs.Parsing
import MapAlgebra.Proofs.Precedence

/-!
# Moves of evaluation

Evaluation, whether it fails or not, does four things to a session: it logs, takes numbers, keeps
bound values loaded and, with tracing on, writes grids. None of them binds a name or moves a slot,
so a value that comes of it is new or bound already.
-/

namespace MapAlgebra

open Expression

variable {K V S α β : Type}

namespace Run

/-- From a session a step moves along a relation, whatever comes of it. What it gives has a property
in the session it leaves, and what it fails by has another. -/
structure Leads (R : Session K V S → Session K V S → Prop) (p : α → Session K V S → Prop)
    (q : Fault → Prop) (session : Session K V S) (step : Run K V S α) : Prop where
  moves : R session (from? session step).2
  gives : ∀ a after, from? session step = (.ok a, after) → p a after
  fails : ∀ fault after, from? session step = (.error fault, after) → q fault

namespace Leads

variable {R : Session K V S → Session K V S → Prop} {p : α → Session K V S → Prop}
  {q : Fault → Prop} {session : Session K V S}

theorem of_gives {p' : α → Session K V S → Prop} {step : Run K V S α}
    (h : Leads R p q session step)
    (hp : ∀ a after, R session after → p a after → p' a after) :
    Leads R p' q session step where
  moves := h.moves
  gives a after ha := hp a after (by simpa [ha] using h.moves) (h.gives a after ha)
  fails := h.fails

theorem of_fails {q' : Fault → Prop} {step : Run K V S α} (h : Leads R p q session step)
    (hq : ∀ fault, q fault → q' fault) : Leads R p q' session step where
  moves := h.moves
  gives := h.gives
  fails fault after hfault := hq fault (h.fails fault after hfault)

theorem lift [Std.Refl R] {outcome : Except Fault α} (hfails : Fails q outcome)
    (hgives : ∀ a, outcome = .ok a → p a session) :
    Leads R p q session (liftExcept outcome) where
  moves := by
    rw [from?_liftExcept]
    exact Std.Refl.refl session
  gives a after ha := by
    obtain ⟨houtcome, rfl⟩ := from?_liftExcept_eq_ok.mp ha
    exact hgives a houtcome
  fails fault after hfault := by
    rw [from?_liftExcept] at hfault
    exact hfails fault (congrArg Prod.fst hfault)

theorem pure [Std.Refl R] {a : α} (h : p a session) :
    Leads R p q session (Pure.pure a : Run K V S α) where
  moves := Std.Refl.refl session
  gives b after hb := by
    obtain ⟨rfl, rfl⟩ := from?_pure_eq_ok.mp hb
    exact h
  fails := nofun

theorem throw [Std.Refl R] {fault : Fault} (h : q fault) :
    Leads R p q session (MonadExcept.throw fault : Run K V S α) where
  moves := Std.Refl.refl session
  gives := nofun
  fails other after hother := by
    cases hother
    exact h

theorem bind [IsTrans (Session K V S) R] {p' : β → Session K V S → Prop} {step : Run K V S α}
    {next : α → Run K V S β} (hstep : Leads R p q session step)
    (hnext : ∀ a between, R session between → p a between → Leads R p' q between (next a)) :
    Leads R p' q session (step >>= next) := by
  obtain ⟨hmoves, hgives, hfails⟩ := hstep
  have hbind : from? session (step >>= next) = _ := from?_bind step next
  rcases hrun : from? session step with ⟨fault | a, between⟩
  · rw [hrun] at hmoves hbind
    refine ⟨hbind ▸ hmoves, fun b after hb => ?_, fun other after hother => ?_⟩
    · cases hbind.symm.trans hb
    · cases hbind.symm.trans hother
      exact hfails fault between hrun
  · rw [hrun] at hmoves hbind
    have h := hnext a between hmoves (hgives a between hrun)
    have hmoved := IsTrans.trans _ _ _ hmoves h.moves
    refine ⟨hbind ▸ hmoved, fun b after hb => ?_, fun fault after hf => ?_⟩
    · exact h.gives b after (hbind.symm.trans hb)
    · exact h.fails fault after (hbind.symm.trans hf)

theorem lift_bind [Std.Refl R] {p' : β → Session K V S → Prop} {outcome : Except Fault α}
    {next : α → Run K V S β} (hfails : Fails q outcome)
    (hnext : ∀ a, outcome = .ok a → Leads R p' q session (next a)) :
    Leads R p' q session (liftExcept outcome >>= next) := by
  cases outcome with
  | error fault => exact throw (hfails fault rfl)
  | ok a => exact hnext a rfl

/-- A step that begins by looking at the session. -/
theorem get_bind {next : Session K V S → Run K V S α} (h : Leads R p q session (next session)) :
    Leads R p q session (MonadState.get >>= next) :=
  ⟨h.moves, h.gives, h.fails⟩

theorem ite {condition : Prop} [Decidable condition] {step other : Run K V S α}
    (hstep : condition → Leads R p q session step)
    (hother : ¬ condition → Leads R p q session other) :
    Leads R p q session (if condition then step else other) := by
  split
  next h => exact hstep h
  next h => exact hother h

end Leads

end Run

namespace Session

variable [Coordinate K] [Number V] [Cell S V]
variable {settings : Settings K V} {session before after : Session K V S}

/-- No slot, or the slot of a bound value. -/
def Knows (session : Session K V S) (slot : Option Nat) : Prop :=
  slot = none ∨ slot ∈ session.table.bindings.map (·.value.slot)

/-- What evaluation does to a session at a time: it logs a record, takes a number, keeps a bound
value loaded or, with tracing on, writes a grid. -/
inductive Move (settings : Settings K V) : Session K V S → Session K V S → Prop
  | record (session : Session K V S) (record : Record) :
      Move settings session (session.addRecord record)
  | number (session : Session K V S) :
      Move settings session { session with counter := session.counter + 1 }
  | load {session : Session K V S} {name : Text} {binding : Binding K V S}
      {loaded : Operand K V S} (hbinding : session.table.get? name = some binding)
      (hload : binding.value.load session.files = .ok loaded) :
      Move settings session
        { session with table := session.table.update (substituteNodata settings loaded) }
  | trace (session : Session K V S) (grid : Grid K V S) (id : Text) (metadata : Option Metadata)
      (htraces : settings.traces) :
      Move settings session { session with
        files := (grid.write (tracePath settings session.files id) metadata session.files).2 }

abbrev Moves (settings : Settings K V) : Session K V S → Session K V S → Prop :=
  Relation.ReflTransGen (Move settings)

theorem moves_addRecords (session : Session K V S) (records : List Record) :
    Moves settings session (records.foldl addRecord session) := by
  induction records generalizing session with
  | nil => exact .refl
  | cons record records ih => exact .head (.record session record) (ih _)

section Slots

variable {K V S : Type}

theorem nextSlot_update (table : VariableTable K V S) (value : Operand K V S) :
    (table.update value).nextSlot = table.nextSlot := by
  unfold VariableTable.update
  split <;> rfl

theorem slots_update (table : VariableTable K V S) (value : Operand K V S) :
    (table.update value).bindings.map (·.value.slot) = table.bindings.map (·.value.slot) := by
  unfold VariableTable.update
  split
  next => rfl
  next =>
    rw [List.map_map]
    refine List.map_congr_left fun binding _ => ?_
    dsimp only [Function.comp]
    split
    next hslot => exact (beq_iff_eq.mp hslot).symm
    next => rfl

end Slots

theorem Move.slots_eq (h : Move settings before after) :
    after.table.bindings.map (·.value.slot) = before.table.bindings.map (·.value.slot) := by
  cases h with
  | record record => rw [table_addRecord]
  | number => rfl
  | load => exact slots_update _ _
  | trace => rfl

theorem Moves.slots_eq (h : Moves settings before after) :
    after.table.bindings.map (·.value.slot) = before.table.bindings.map (·.value.slot) := by
  induction h with
  | refl => rfl
  | tail _ hmove ih => exact hmove.slots_eq.trans ih

theorem Moves.knows_iff (h : Moves settings before after) (slot : Option Nat) :
    after.Knows slot ↔ before.Knows slot := by
  unfold Knows
  rw [h.slots_eq]

end Session

/-- The same map under the same name, with everything that is known of it. -/
structure Binding.Kept (before after : Binding K V S) : Prop where
  value : before.value.SameMap after.value
  rest : after = { before with value := after.value }

/-- Bindings of the same maps in the same order. -/
abbrev Kept (before after : List (Binding K V S)) : Prop :=
  List.Forall₂ Binding.Kept before after

theorem Binding.Kept.refl (binding : Binding K V S) : binding.Kept binding :=
  ⟨.refl binding.value, rfl⟩

namespace Kept

variable {before between after : List (Binding K V S)}

theorem refl (bindings : List (Binding K V S)) : Kept bindings bindings :=
  List.forall₂_same.mpr fun binding _ => .refl binding

theorem trans (h : Kept before between) (h' : Kept between after) : Kept before after := by
  induction h generalizing after with
  | nil => exact h'
  | cons hhead _ ih =>
      cases h' with
      | cons hhead' hrest' =>
          refine .cons ⟨hhead.value.trans hhead'.value, ?_⟩ (ih hrest')
          rw [hhead'.rest, hhead.rest]

theorem reloaded (h : Kept before after) : Reloaded before after :=
  h.imp fun _ _ hkept => ⟨by rw [hkept.rest], hkept.value.reloaded⟩

end Kept

namespace Session

variable [Coordinate K] [Number V] [Cell S V]
variable {settings : Settings K V} {before after : Session K V S}

theorem Move.kept (h : Move settings before after)
    (hapart : VariableTable.Apart before.table.bindings) :
    Kept before.table.bindings after.table.bindings := by
  cases h with
  | record record =>
      rw [table_addRecord]
      exact .refl _
  | number => exact .refl _
  | @load _ binding loaded hbinding hload =>
      have hsame : binding.value.SameMap (substituteNodata settings loaded) := .of_load hload
      exact VariableTable.forall₂_update Binding.Kept.refl hapart
        (VariableTable.mem_of_get?_eq_some hbinding).1 hsame.slot_eq ⟨hsame, rfl⟩
  | trace => exact .refl _

theorem Move.nextSlot_eq (h : Move settings before after) :
    after.table.nextSlot = before.table.nextSlot := by
  cases h with
  | record record => rw [table_addRecord]
  | number => rfl
  | load => exact nextSlot_update _ _
  | trace => rfl

/-- Moves keep the bindings, which are apart from each other all the time. -/
theorem Moves.kept (h : Moves settings before after)
    (hapart : VariableTable.Apart before.table.bindings) :
    Kept before.table.bindings after.table.bindings := by
  induction h with
  | refl => exact .refl _
  | tail _ hmove ih => exact ih.trans (hmove.kept (hapart.of_reloaded ih.reloaded))

theorem Moves.nextSlot_eq (h : Moves settings before after) :
    after.table.nextSlot = before.table.nextSlot := by
  induction h with
  | refl => rfl
  | tail _ hmove ih => exact hmove.nextSlot_eq.trans ih

end Session

namespace Run

variable [Coordinate K] [Number V] [Cell S V]
variable {settings : Settings K V} {session : Session K V S} {q : Fault → Prop}

theorem leads_record (level : Level) (text : String) :
    Leads (Session.Moves settings) (fun _ _ => True) q session (record level text) :=
  ⟨.single (.record session _), fun _ _ _ => trivial, nofun⟩

theorem leads_nextId :
    Leads (Session.Moves settings) (fun _ _ => True) q session (nextId : Run K V S Text) :=
  ⟨.single (.number session), fun _ _ _ => trivial, nofun⟩

theorem leads_traced {computation : Traced α} {p : α → Prop}
    (hfails : Traced.Fails q computation) (hgives : Traced.Gives p computation) :
    Leads (Session.Moves settings) (fun a _ => p a) q session (traced computation) := by
  refine ⟨?_, fun a after ha => ?_, fun fault after hf => ?_⟩
  · rw [from?_traced]
    exact Session.moves_addRecords session _
  · exact hgives [] a (from?_traced_eq_ok.mp ha).1
  · rw [from?_traced] at hf
    exact hfails [] fault (congrArg Prod.fst hf)

end Run

namespace Grid

variable [Coordinate K] [Number V] [Cell S V]

/-- Writing a grid fails by its values, by its header or by the files. -/
theorem fails_write_of {q : Fault → Prop} (hfile : ∀ fault, q (.file fault))
    (hgrid : ∀ fault, fault.OfGrid → q fault) (htruncated : q (.format .truncated))
    (grid : Grid K V S) (path : Path) (metadata : Option Metadata) (files : FileTree) :
    Fails q (grid.write path metadata files).1 := by
  have hencode (cells : Raster S) : Fails q (Idf.encode grid cells).2 := by
    unfold Idf.encode
    dsimp only
    split
    next => exact .throw htruncated
    next =>
      split
      next => exact .pure _
      next => exact .throw (hgrid _ trivial)
  unfold write
  split
  next => exact .throw (hfile _)
  next =>
    split
    next fault hvalues => exact .throw (hgrid _ (grid.fails_values fault hvalues))
    next cells hvalues =>
      dsimp only
      split
      next => exact .throw (hfile _)
      next =>
        split
        next =>
          split
          next => exact .pure _
          next => exact .throw (hfile _)
        next => exact hencode cells

theorem fails_write (grid : Grid K V S) (path : Path) (metadata : Option Metadata)
    (files : FileTree) : Fails Fault.IsShallow (grid.write path metadata files).1 :=
  fails_write_of (fun _ => trivial) (fun _ h => h.ofFunction.isShallow) trivial _ _ _ _

end Grid

namespace Expression

open Session Run

variable [Coordinate K] [Number V] [Cell S V]
variable {settings : Settings K V} {session : Session K V S} {scope : Scope K V}

theorem leads_emit (id text : Text) (value : Operand K V S) :
    Leads (Moves settings) (fun _ _ => True) Fault.IsShallow session
      (emit settings id text value) := by
  unfold emit
  refine .ite (fun htraces => ?_) fun _ => .pure trivial
  refine .bind (leads_record _ _) fun _ named _ _ => ?_
  cases value with
  | constant c => exact leads_record _ _
  | grid g =>
      refine .get_bind ?_
      refine .bind (p := fun _ _ => True) ⟨?_, fun _ _ _ => trivial, fun fault after hf => ?_⟩
        fun _ _ _ _ => leads_record _ _
      · rw [from?_changeFiles]
        exact .single (.trace named g id _ htraces)
      · rw [from?_changeFiles] at hf
        exact g.fails_write _ _ _ fault (congrArg Prod.fst hf)

/-- What evaluation gives is new or bound. -/
abbrev PartKnown (part : Part K V S) (session : Session K V S) : Prop :=
  session.Knows part.value.slot

theorem leads_readFile (name : Text) :
    Leads (Moves scope.settings) (fun value _ => value.slot = none) Fault.IsShallow session
      (scope.readFile name : Run K V S (Operand K V S)) := by
  unfold Scope.readFile
  refine .get_bind ?_
  dsimp only
  refine .ite (fun _ => .ite (fun _ => .throw trivial) fun _ => .throw trivial) fun _ => ?_
  refine .bind (leads_traced ((Grid.fails_read _ _).mono fun _ h => h.isShallow)
    (Grid.isOpened_read _ _)) fun grid _ _ hopened => ?_
  refine .lift_bind ((Grid.fails_load _ grid).mono fun _ h => h.isShallow) fun loaded hload => ?_
  obtain ⟨cells, rfl, -⟩ := Grid.load_eq_ok hload
  exact .pure hopened.slot

theorem leads_readVariable (name : Text) :
    Leads (Moves scope.settings) PartKnown Fault.IsShallow session
      (scope.readVariable name : Run K V S (Part K V S)) := by
  have hitem : Fails Fault.IsShallow (session.table.item name) := by
    unfold VariableTable.item
    split
    next => exact .pure _
    next => exact .throw trivial
  unfold Scope.readVariable
  refine .get_bind (.lift_bind hitem fun binding hbinding => ?_)
  refine .lift_bind ((Operand.fails_load _ _).mono fun _ h => h.isShallow) fun loaded hload => ?_
  have hfound := VariableTable.item_eq_ok_iff.mp hbinding
  have hmove : Move scope.settings session { session with
      table := session.table.update (substituteNodata scope.settings loaded) } :=
    .load hfound hload
  refine ⟨.single hmove, fun part after hpart => ?_, nofun⟩
  cases hpart
  -- the loaded value stands at the slot of the bound one
  refine .inr (hmove.slots_eq ▸ List.mem_map.mpr ⟨binding, ?_, ?_⟩)
  · exact (VariableTable.mem_of_get?_eq_some hfound).1
  · exact (Operand.Reloaded.of_load hload).slot_eq.symm

theorem leads_resolveName (name : Text) :
    Leads (Moves scope.settings) PartKnown Fault.IsShallow session
      (scope.resolveName name : Run K V S (Part K V S)) := by
  unfold Scope.resolveName
  split
  next bound _ => exact leads_readVariable bound
  next =>
    refine .ite (fun _ => .pure (.inl rfl)) fun _ => .ite (fun _ => ?_) fun _ => .throw trivial
    refine .bind (leads_readFile name) fun value _ _ hslot => .pure (.inl ?_)
    cases value with
    | constant c => exact hslot
    | grid g =>
        obtain ⟨substitute, heq⟩ := exists_substituteNodata_eq scope.settings g
        rw [heq]
        exact hslot

theorem leads_signed (negated : Bool) {part : Part K V S}
    (hpart : PartKnown part session) :
    Leads (Moves settings) PartKnown Fault.IsShallow session (Scope.signed negated part) := by
  unfold Scope.signed
  refine .ite (fun _ => ?_) fun _ => .pure hpart
  refine .lift_bind ((Operand.fails_negate _).mono fun _ h => h.ofFunction.isShallow)
    fun value hvalue => .pure (.inl ?_)
  exact (Operand.isNew_negate _ value hvalue).slot_eq

theorem leads_resolveToken (token : Text) :
    Leads (Moves scope.settings) PartKnown Fault.IsShallow session
      (scope.resolveToken token : Run K V S (Part K V S)) := by
  unfold Scope.resolveToken
  split
  next => exact .pure (.inl rfl)
  next => exact .bind (leads_resolveName _) fun part _ _ hpart => leads_signed _ hpart

/-- A merge gives a new value. -/
theorem leads_mergeLinks (left : Link K V S) (op : Operator) (right : Link K V S) :
    Leads (Moves scope.settings) (fun link _ => link.value.slot = none) Fault.IsShallow session
      (scope.mergeLinks left op right) := by
  unfold Scope.mergeLinks
  refine .bind leads_nextId fun id _ _ _ => ?_
  refine .bind (leads_traced ((fails_combine _ _ _ _).mono fun _ h => h.ofFunction.isShallow)
    (isNew_combine _ _ _ _)) fun value _ _ hnew => ?_
  exact .bind (leads_emit _ _ _) fun _ _ _ _ => .pure hnew.slot_eq

theorem leads_reduce (tree : Merging (Link K V S)) :
    Leads (Moves scope.settings) (fun link _ => tree = .operand link ∨ link.value.slot = none)
      Fault.IsShallow session (tree.reduce scope.mergeLinks) := by
  induction tree generalizing session with
  | operand link => exact .pure (.inl rfl)
  | merge left op right ihl ihr =>
      rw [Merging.reduce]
      refine .bind ihl fun a _ _ _ => .bind ihr fun b _ _ _ => ?_
      exact (leads_mergeLinks a op b).of_gives fun _ _ _ hslot => .inr hslot

/-- A depth that is refused is beyond the limit. -/
theorem leads_checkDepth (scope : Scope K V) (depth : Nat) :
    Leads (Moves scope.settings) (fun _ _ => True) (Fault.Within scope.settings.maxDepth depth)
      session (scope.checkDepth depth : Run K V S Unit) := by
  unfold Scope.checkDepth
  exact .ite (fun hdeep => .throw ⟨rfl, hdeep⟩) fun _ => .pure trivial

omit [Coordinate K] [Number V] in
theorem isShallow_breakFault (scope : Scope K V) (wanted : Text) (left : Nat) :
    (Fault.expression (scope.breakFault wanted left)).IsShallow := by
  unfold Scope.breakFault
  dsimp only
  split <;> trivial

/-- The links of a chain are a row of known values. -/
def LinksKnown (links : Link K V S × List (Link K V S)) (session : Session K V S) : Prop :=
  IsRow ((links.1 :: links.2).map Link.placed) ∧
    ∀ link ∈ links.1 :: links.2, PartKnown link.toPart session

def PartsKnown (parts : List (Part K V S)) (session : Session K V S) : Prop :=
  ∀ part ∈ parts, PartKnown part session

/-- Merging a row gives its only operand or a new value. -/
theorem leads_merge (scope : Scope K V) {links : Link K V S × List (Link K V S)}
    (hlinks : LinksKnown links session) :
    Leads (Moves scope.settings) (fun link after => PartKnown link.toPart after) Fault.IsShallow
      session (scope.merge links.1 links.2) := by
  obtain ⟨hrow, hknown⟩ := hlinks
  rw [Scope.merge_eq_reduce scope hrow]
  refine (leads_reduce _).of_gives fun link after hmoves hlink => ?_
  rcases hlink with htree | hslot
  · have hfirst := first_bySplitting links.1 (joins links.1.action (links.2.map Link.placed))
    rw [htree] at hfirst
    cases hfirst
    exact (hmoves.knows_iff _).mpr (hknown _ List.mem_cons_self)
  · exact .inl hslot

theorem leads_link (depth : Nat) (action : Option Operator) {part : Part K V S}
    (hpart : PartKnown part session) :
    Leads (Moves scope.settings)
      (fun link after => PartKnown link.toPart after ∧ link.action = action) Fault.IsShallow session
      (Scope.link depth action part) :=
  .bind leads_nextId fun _ _ hmoves _ => .pure ⟨(hmoves.knows_iff _).mpr hpart, rfl⟩

variable [Conversion K V]

/-- A function gives a new value or one of its arguments. -/
theorem leads_call (function : Function) {arguments : List (Part K V S)}
    (harguments : PartsKnown arguments session) :
    Leads (Moves scope.settings) PartKnown Fault.IsShallow session
      (scope.call function arguments) := by
  unfold Scope.call
  refine .bind (leads_traced ((fails_compute _ _ _ _).mono fun _ h => h.isShallow)
    (slot_compute _ _ _ _)) fun value _ hcomputing hslot => ?_
  refine .bind leads_nextId fun id _ hnumbering _ => ?_
  refine .bind (leads_emit _ _ _) fun _ _ hemitting _ => .pure ?_
  rcases hslot with hnone | ⟨argument, hmem, hslot⟩
  · exact .inl hnone
  · have hmoves : Moves scope.settings session _ := hcomputing.trans (hnumbering.trans hemitting)
    refine (hmoves.knows_iff _).mpr ?_
    rw [hslot]
    exact harguments argument hmem

-- By induction on the derivation, which may break off: what was evaluated before a break or a
-- failing part has moved the session, and that is all it has done. A part that is too deep lies in
-- the whole as deep as it is nested there.
mutual

theorem leads_evaluateLinks (scope : Scope K V) : ∀ (chain : Chain) (depth : Nat)
    (session : Session K V S), Leads (Moves scope.settings) LinksKnown
      (Fault.Within scope.settings.maxDepth (depth + chain.nesting)) session
      (scope.evaluateLinks depth chain)
  | .last term, depth, session => by
      rw [Scope.evaluateLinks]
      refine .bind (leads_evaluateTerm scope term depth session) fun part _ _ hpart => ?_
      refine .bind ((leads_link depth none hpart).of_fails fun _ h => h.within)
        fun link _ _ hlink => .pure ⟨hlink.2, ?_⟩
      intro other hother
      rw [List.mem_singleton.mp hother]
      exact hlink.1
  | .join term op rest, depth, session => by
      rw [Scope.evaluateLinks, Chain.nesting]
      refine .bind ((leads_evaluateTerm scope term depth session).of_fails
        fun _ h => h.mono (by omega)) fun part _ _ hpart => ?_
      refine .bind ((leads_link depth (some op) hpart).of_fails fun _ h => h.within)
        fun first _ _ hfirst => ?_
      refine .bind ((leads_evaluateLinks scope rest depth _).of_fails
        fun _ h => h.mono (by omega)) fun others _ hmoves hothers => ?_
      have haction : first.action ≠ none := by simp [hfirst.2]
      refine .pure ⟨⟨haction, hothers.1⟩, fun link hlink => ?_⟩
      rcases List.mem_cons.mp hlink with rfl | hlink
      · exact (hmoves.knows_iff _).mpr hfirst.1
      · exact hothers.2 link hlink
  | .broken term wanted left, depth, session => by
      rw [Scope.evaluateLinks]
      refine .bind (leads_evaluateTerm scope term depth session) fun _ _ _ _ => .throw ?_
      exact (isShallow_breakFault scope wanted left).within

theorem leads_evaluateTerm (scope : Scope K V) : ∀ (term : Term) (depth : Nat)
    (session : Session K V S), Leads (Moves scope.settings) PartKnown
      (Fault.Within scope.settings.maxDepth (depth + term.nesting)) session
      (scope.evaluateTerm depth term)
  | .token text, depth, session => by
      rw [Scope.evaluateTerm]
      exact (leads_resolveToken text).of_fails fun _ h => h.within
  | .missing left, depth, session => by
      rw [Scope.evaluateTerm]
      exact .throw trivial
  | .group negated body, depth, session => by
      rw [Scope.evaluateTerm, Term.nesting]
      refine .bind ((leads_checkDepth scope _).of_fails fun _ h => h.mono (by omega))
        fun _ _ _ _ => ?_
      refine .bind ((leads_evaluateLinks scope body _ _).of_fails fun _ h => h.mono (by omega))
        fun links _ _ hlinks => ?_
      refine .bind ((leads_merge scope hlinks).of_fails fun _ h => h.within)
        fun result _ _ hresult => ?_
      exact (leads_signed negated hresult).of_fails fun _ h => h.within
  | .call negated name arguments, depth, session => by
      rw [Scope.evaluateTerm, Term.nesting]
      split
      next => exact .throw trivial
      next function _ =>
        refine .bind ((leads_evaluateArguments scope arguments _ _).of_fails
          fun _ h => h.mono (by omega)) fun parts _ _ hparts => ?_
        refine .bind ((leads_call function hparts).of_fails fun _ h => h.within)
          fun _ _ _ hpart => ?_
        exact (leads_signed negated hpart).of_fails fun _ h => h.within

theorem leads_evaluateArguments (scope : Scope K V) : ∀ (arguments : Arguments) (depth : Nat)
    (session : Session K V S), Leads (Moves scope.settings) PartsKnown
      (Fault.Within scope.settings.maxDepth (depth + arguments.nesting)) session
      (scope.evaluateArguments depth arguments)
  | .none, depth, session => by
      rw [Scope.evaluateArguments]
      exact .pure fun _ hpart => absurd hpart List.not_mem_nil
  | .more chain others, depth, session => by
      rw [Scope.evaluateArguments, Arguments.nesting]
      refine .bind ((leads_checkDepth scope _).of_fails fun _ h => h.mono (by omega))
        fun _ _ _ _ => ?_
      refine .bind ((leads_evaluateLinks scope chain _ _).of_fails fun _ h => h.mono (by omega))
        fun links _ _ hlinks => ?_
      refine .bind ((leads_merge scope hlinks).of_fails fun _ h => h.within)
        fun result _ _ hresult => ?_
      refine .bind ((leads_evaluateArguments scope others _ _).of_fails
        fun _ h => h.mono (by omega)) fun parts _ hmoves hparts => .pure ?_
      intro part hpart
      rcases List.mem_cons.mp hpart with rfl | hpart
      · exact (hmoves.knows_iff _).mpr hresult
      · exact hparts part hpart

end

/-- Evaluating a prepared text moves the session. What it gives is new or bound, and if its depth is
refused, the chain that was read is nested beyond the limit. -/
theorem leads_evaluate (prepared : Prepared) :
    Leads (Moves settings) (fun found after => after.Knows found.1.slot)
      (Fault.Within settings.maxDepth (readChain [] prepared.text).1.nesting) session
      (evaluate settings prepared : Run K V S (Operand K V S × Provenance)) := by
  unfold evaluate
  refine .bind ((leads_checkDepth ⟨settings, prepared⟩ 0).of_fails fun _ h => h.mono (by omega))
    fun _ _ _ _ => ?_
  refine .bind ((leads_evaluateLinks ⟨settings, prepared⟩ _ _ _).of_fails
    fun _ h => h.mono (by omega)) fun links _ _ hlinks => ?_
  exact .bind ((leads_merge ⟨settings, prepared⟩ hlinks).of_fails fun _ h => h.within)
    fun _ _ _ hresult => .pure hresult

/-- Evaluating an expression moves the session and fails by no fault of a line. What it gives is new
or bound. -/
theorem leads_parse (source : Text) :
    Leads (Moves settings) (fun found after => after.Knows found.1.slot) Fault.IsBare session
      (parse settings source : Run K V S (Operand K V S × Provenance)) := by
  unfold parse
  refine .get_bind ?_
  split
  next => exact .throw trivial
  next prepared _ => exact (leads_evaluate prepared).of_fails fun _ h => h.isBare

end Expression

end MapAlgebra
