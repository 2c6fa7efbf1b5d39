import MapAlgebra.Proofs.Alone
import MapAlgebra.Proofs.CommonExtents
import MapAlgebra.Proofs.Moves
import MapAlgebra.Proofs.Precedence
import MapAlgebra.Proofs.Substitutes

/-!
# The extents of results

With a fixed extent every grid that an expression computes has this extent, wherever the bound grids
lie that it is computed from, as long as the extent is on their lattices. Only an expression that is
a name may give a grid of another extent.
-/

namespace MapAlgebra

variable {V S α β : Type}

namespace Run

variable {K : Type} {session : Session K V S} {p : α → Prop}

/-- What a step gives, if it gives anything, has a property. -/
def Gives (p : α → Prop) (session : Session K V S) (step : Run K V S α) : Prop :=
  ∀ a after, from? session step = (.ok a, after) → p a

namespace Gives

theorem pure {a : α} (h : p a) : Gives p session (Pure.pure a : Run K V S α) := by
  intro b after hb
  obtain ⟨rfl, -⟩ := from?_pure_eq_ok.mp hb
  exact h

theorem throw (fault : Fault) : Gives p session (MonadExcept.throw fault : Run K V S α) := by
  intro a after ha
  cases ha

/-- The second step starts from a session that the first one leads to. -/
theorem bind {q : β → Prop} {step : Run K V S α} {next : α → Run K V S β}
    (hstep : Gives p session step)
    (hnext : ∀ a between, from? session step = (.ok a, between) → p a →
      Gives q between (next a)) : Gives q session (step >>= next) := by
  intro b after hb
  obtain ⟨a, between, ha, hrest⟩ := from?_bind_eq_ok.mp hb
  exact hnext a between ha (hstep a between ha) b after hrest

theorem mono {q : α → Prop} {step : Run K V S α} (h : Gives p session step)
    (hpq : ∀ a, p a → q a) : Gives q session step :=
  fun a after ha => hpq a (h a after ha)

end Gives

theorem Leads.moves_of_eq_ok {R : Session K V S → Session K V S → Prop}
    {p : α → Session K V S → Prop} {q : Fault → Prop} {step : Run K V S α} {a : α}
    {after : Session K V S} (h : Leads R p q session step)
    (hstep : from? session step = (.ok a, after)) : R session after := by
  simpa [hstep] using h.moves

end Run

namespace Expression

mutual

/-- A complete chain of tokens and calls with given properties. -/
def Chain.Uses (token : Text → Prop) (called : Function → Prop) : Chain → Prop
  | .last term => term.Uses token called
  | .join term _ rest => term.Uses token called ∧ rest.Uses token called
  | .broken .. => False

def Term.Uses (token : Text → Prop) (called : Function → Prop) : Term → Prop
  | .token text => token text
  | .missing _ => False
  | .group _ body => body.Uses token called
  | .call _ name arguments =>
      (∃ function, Function.ofName? name = some function ∧ called function) ∧
        arguments.Uses token called

def Arguments.Uses (token : Text → Prop) (called : Function → Prop) : Arguments → Prop
  | .none => True
  | .more first rest => first.Uses token called ∧ rest.Uses token called

end

/-- A number, the name of a variable or the keyword for no data, and not the name of a file. -/
def Scope.IsPlain {K V : Type} [Number V] (scope : Scope K V) (token : Text) : Prop :=
  (literal? token : Option V).isSome ∨ (scope.prepared.name? (signedName token).2).isSome ∨
    isNodataToken (signedName token).2

/-- The functions that combine grids cell by cell. -/
def Function.Combining (function : Function) : Prop :=
  function = .ifThenElse ∨ function = .minimum ∨ function = .maximum

end Expression

open Expression Operand

namespace Expression

variable {target : Extent ℚ} {alone : Option (Bool × Text)}

/-- A value that can be brought to an extent, and has this extent unless it is that of a name. -/
structure Brings (target : Extent ℚ) (alone : Option (Bool × Text)) (value : Operand ℚ V S) :
    Prop where
  aligned : value.AlignedTo target
  fills : alone = none → value.Fills target

theorem brings_of_fills {value : Operand ℚ V S} (h : value.Fills target) :
    Brings target alone value :=
  ⟨h.alignedTo, fun _ => h⟩

theorem alignedTo_substituteNodata {value : Operand ℚ V S} (h : value.AlignedTo target)
    (settings : Settings ℚ V) : (substituteNodata settings value).AlignedTo target := by
  cases value with
  | constant c => exact eachGrid_constant _ c
  | grid g =>
      obtain ⟨hregular, hon⟩ := h g rfl
      obtain ⟨substitute, hvalue⟩ := exists_substituteNodata_eq settings g
      obtain ⟨⟨⟨cells, hcells, hfits⟩, hright, hupper⟩, hwide, hhigh⟩ := hregular
      rw [hvalue]
      exact eachGrid_grid
        ⟨⟨⟨⟨cells, hcells, hfits.rows, hfits.cols⟩, hright, hupper⟩, hwide, hhigh⟩, hon⟩

variable [Number V] [Cell S V]

/-- What holds of the geometry of a grid holds of the negated grid. -/
theorem eachGrid_negate {p : Grid ℚ V S → Prop} (hshaped : ∀ grid, p grid → grid.IsShaped)
    (hp : ∀ grid other, p grid → grid.Matches other → p other) {operand value : Operand ℚ V S}
    (h : operand.EachGrid p) (hvalue : operand.negate = .ok value) : value.EachGrid p := by
  cases operand with
  | constant c =>
      cases hvalue
      exact eachGrid_constant p _
  | grid g =>
      have hg := h g rfl
      unfold Operand.negate at hvalue
      cases hnegate : g.negate with
      | error fault =>
          simp only [hnegate, bind, Except.bind] at hvalue
          cases hvalue
      | ok negated =>
          simp only [hnegate, bind, Except.bind] at hvalue
          cases hvalue
          exact eachGrid_grid (hp g _ hg (Grid.matches_negate (hshaped g hg) _ hnegate))

theorem Brings.of_signed {negated : Bool} {part result : Part ℚ V S}
    (h : Brings target alone part.value) (hsigned : Signed negated part result) :
    Brings target (alone.map fun found => (negated || found.1, found.2)) result.value := by
  cases hsigned with
  | plain => exact ⟨h.aligned, fun hnone => h.fills (Option.map_eq_none_iff.mp hnone)⟩
  | negated hvalue =>
      refine ⟨?_, fun hnone => ?_⟩
      · refine eachGrid_negate (fun _ hgrid => hgrid.1.consistent.isShaped)
          (fun grid other hgrid hmatches => ⟨hgrid.1.of_matches hmatches, ?_⟩) h.aligned hvalue
        have hlattice : other.lattice = grid.lattice := by
          unfold Grid.lattice
          rw [hmatches.extent, hmatches.cellWidth, hmatches.cellHeight]
        exact hlattice ▸ hgrid.2
      · exact eachGrid_negate (fun _ hgrid => hgrid.1.consistent.isShaped)
          (fun grid other hgrid hmatches =>
            ⟨hgrid.1.of_matches hmatches, hmatches.extent.trans hgrid.2⟩)
          (h.fills (Option.map_eq_none_iff.mp hnone)) hvalue

end Expression

variable [Number V] [Cell S V]

/-- Whenever a variable is looked up in an evaluation, its grid, once loaded, is regular and has an
extent on its lattice. -/
def Session.AlignedTo (settings : Settings ℚ V) (target : Extent ℚ) (session : Session ℚ V S) :
    Prop :=
  ∀ later, Moves settings session later → ∀ name binding loaded,
    later.table.item name = .ok binding → binding.value.load later.files = .ok loaded →
      loaded.AlignedTo target

theorem Session.AlignedTo.of_moves {settings : Settings ℚ V} {target : Extent ℚ}
    {session between : Session ℚ V S} (h : session.AlignedTo settings target)
    (hmoves : Moves settings session between) : between.AlignedTo settings target :=
  fun later hlater => h later (hmoves.trans hlater)

/-- Grids in memory that an extent is aligned to stay so. -/
theorem Session.alignedTo_of_bindings {settings : Settings ℚ V} {target : Extent ℚ}
    {session : Session ℚ V S} (hapart : VariableTable.Apart session.table.bindings)
    (hbound : ∀ binding ∈ session.table.bindings, binding.value.AlignedTo target) :
    session.AlignedTo settings target := by
  intro later hlater name binding loaded hitem hload
  have hmem := (VariableTable.mem_of_get?_eq_some (VariableTable.item_eq_ok_iff.mp hitem)).1
  obtain ⟨old, hold, hkept⟩ := exists_of_forall₂ (hlater.kept hapart) hmem
  have hsame := hkept.value
  have haligned := hbound old hold
  generalize old.value = before at hsame haligned
  generalize binding.value = value at hsame hload
  cases hsame with
  | constant c =>
      cases hload
      exact eachGrid_constant _ c
  | grid g cells substitute hcells =>
      obtain ⟨⟨⟨⟨own, hown, hfits⟩, hright, hupper⟩, hwide, hhigh⟩, hon⟩ := haligned g rfl
      have hresident : cells = .resident own := by
        rw [← hown]
        refine hcells ?_
        unfold Grid.isLoaded
        rw [hown]
      rw [Grid.load_of_resident hresident] at hload
      cases hload
      exact eachGrid_grid
        ⟨⟨⟨⟨own, hresident, hfits.rows, hfits.cols⟩, hright, hupper⟩, hwide, hhigh⟩, hon⟩

namespace Expression

variable {scope : Scope ℚ V} {target : Extent ℚ} {session after : Session ℚ V S}

/-- The operands of a row can be brought to an extent, a single one as its term can be. -/
structure LinksBring (target : Extent ℚ) (alone : Option (Bool × Text))
    (links : Link ℚ V S × List (Link ℚ V S)) : Prop where
  row : IsRow ((links.1 :: links.2).map Link.placed)
  aligned : ∀ link ∈ links.1 :: links.2, link.value.AlignedTo target
  single : links.2 = [] → Brings target alone links.1.value

theorem gives_resolveToken (hsession : session.AlignedTo scope.settings target) {token : Text}
    (hplain : scope.IsPlain token) :
    Run.Gives (fun part => part.value.AlignedTo target) session
      (scope.resolveToken token : Run ℚ V S (Part ℚ V S)) := by
  intro part after hpart
  cases resolveToken_eq_ok.mp hpart with
  | number h => exact eachGrid_constant _ _
  | @name base result _ hnumber hname hsigned =>
      have hbase : base.value.AlignedTo target := by
        cases hname with
        | «variable» hname hbinding hload hvalue =>
            subst hvalue
            exact alignedTo_substituteNodata (hsession session .refl _ _ _ hbinding hload) _
        | keyword => exact eachGrid_constant _ _
        | file hnone hkeyword =>
            rcases hplain with hliteral | hbound | hword
            · rw [hnumber] at hliteral
              cases hliteral
            · rw [hnone] at hbound
              cases hbound
            · exact absurd hword hkeyword
      have hnamed : Brings target (some (false, token)) base.value :=
        ⟨hbase, fun hnone => absurd hnone (Option.some_ne_none _)⟩
      exact (hnamed.of_signed hsigned).aligned

omit [Number V] [Cell S V] in
theorem gives_link (depth : Nat) (action : Option Operator) (part : Part ℚ V S) :
    Run.Gives (fun link : Link ℚ V S => link.value = part.value ∧ link.action = action) session
      (Scope.link depth action part) := by
  intro link after hlink
  obtain ⟨rfl, -⟩ := link_eq_ok.mp hlink
  exact ⟨rfl, rfl⟩

omit [Cell S V] in
/-- The keyword for no data stands for a constant. -/
theorem eachGrid_nodataResolved {p : Grid ℚ V S → Prop} {left right : Part ℚ V S}
    {a b : Operand ℚ V S} (hresolved : Scope.nodataResolved left right = (a, b))
    (hleft : left.value.EachGrid p) (hright : right.value.EachGrid p) :
    ∀ operand ∈ [a, b], operand.EachGrid p := by
  unfold Scope.nodataResolved at hresolved
  obtain ⟨rfl, rfl⟩ := Prod.mk.inj hresolved
  refine List.forall_mem_cons.mpr ⟨?_, List.forall_mem_singleton.mpr ?_⟩
  · split
    next => exact eachGrid_constant p _
    next => exact hleft
  · split
    next => exact eachGrid_constant p _
    next => exact hright

section Fixed

variable (hfixed : scope.settings.extent = some target) (hempty : target.isEmpty = false)

include hfixed hempty

theorem gives_mergeLinks {left right : Link ℚ V S} (hleft : left.value.AlignedTo target)
    (hright : right.value.AlignedTo target) (op : Operator) :
    Run.Gives (fun link => link.value.Fills target) session
      (scope.mergeLinks left op right) := by
  intro link after hlink
  rcases hresolved : Scope.nodataResolved left.toPart right.toPart with ⟨a, b⟩
  have haligned := eachGrid_nodataResolved hresolved hleft hright
  have hcombines := combines_combine scope hresolved op
  rw [hfixed] at hcombines
  exact (hcombines.fills hempty haligned).gives [] _ (Scope.mergeLinks_eq_ok hlink).1

theorem gives_reduce {tree : Merging (Link ℚ V S)} (hfirst : tree.first.value.AlignedTo target)
    (hrest : ∀ item ∈ tree.rest, item.2.value.AlignedTo target) :
    Run.Gives (fun link => link.value.AlignedTo target ∧
      (tree.rest ≠ [] → link.value.Fills target)) session (tree.reduce scope.mergeLinks) := by
  induction tree generalizing session with
  | operand link => exact .pure ⟨hfirst, fun hnil => absurd rfl hnil⟩
  | merge left op right ihl ihr =>
      have hright := hrest (op, right.first) (List.mem_append_right _ List.mem_cons_self)
      rw [Merging.reduce]
      refine (ihl hfirst fun item h => hrest item (List.mem_append_left _ h)).bind
        fun a _ _ ha => ?_
      refine (ihr hright fun item h => hrest item
        (List.mem_append_right _ (List.mem_cons_of_mem _ h))).bind fun b _ _ hb => ?_
      exact (gives_mergeLinks hfixed hempty ha.1 hb.1 op).mono fun _ hfills =>
        ⟨hfills.alignedTo, fun _ => hfills⟩

theorem gives_merge {alone : Option (Bool × Text)} {links : Link ℚ V S × List (Link ℚ V S)}
    (hlinks : LinksBring target alone links) :
    Run.Gives (fun link => Brings target alone link.value) session
      (scope.merge links.1 links.2) := by
  obtain ⟨hrow, haligned, hsingle⟩ := hlinks
  obtain ⟨first, rest⟩ := links
  rw [Scope.merge_eq_reduce scope hrow]
  cases rest with
  | nil =>
      have hjoins : joins first.action (([] : List (Link ℚ V S)).map Link.placed) = [] := by
        cases first.action <;> rfl
      rw [hjoins, bySplitting_nil]
      exact .pure (hsingle rfl)
  | cons second more =>
      have hlength := hrow.length_joins
      have hfirst : (bySplitting first (joins first.action
          ((second :: more).map Link.placed))).first.value.AlignedTo target := by
        rw [first_bySplitting]
        exact haligned first List.mem_cons_self
      refine (gives_reduce hfixed hempty hfirst ?_).mono fun link hlink =>
        brings_of_fills (hlink.2 ?_)
      · intro item hitem
        rw [rest_bySplitting] at hitem
        obtain ⟨placed, hplaced, hoperand⟩ := exists_placed_of_mem_joins hitem
        obtain ⟨other, hmem, rfl⟩ := List.mem_map.mp hplaced
        rw [← hoperand]
        exact haligned other (List.mem_cons_of_mem _ hmem)
      · rw [rest_bySplitting]
        intro hnil
        have hnone : (joins first.action ((second :: more).map Link.placed)).length = 0 := by
          rw [hnil]
          rfl
        exact absurd (hlength.symm.trans hnone) (by simp)

end Fixed

variable [Conversion ℚ V]

/-- A function that combines grids cell by cell gives a grid over the fixed extent. -/
theorem fills_compute (hempty : target.isEmpty = false) {function : Function}
    (hfunction : function.Combining) {arguments : List (Part ℚ V S)}
    (harguments : ∀ part ∈ arguments, part.value.AlignedTo target) (prepared : Prepared) :
    Traced.Gives (Fills target) (function.compute (some target) prepared arguments) := by
  unfold Function.compute
  refine .ite (.throw_bind _ _) ?_
  unfold Function.Combining at hfunction
  split
  next condition yes no =>
    refine ((combines_choose _ _ _ _).fills hempty ?_).gives
    simpa using harguments
  next a b =>
    refine ((combines_extremum _ _ _ _ _).fills hempty ?_).gives
    simpa using harguments
  next a b =>
    refine ((combines_extremum _ _ _ _ _).fills hempty ?_).gives
    simpa using harguments
  -- the others are not among the functions, or the number of arguments is wrong
  all_goals
    first
    | exact .throw _
    | rcases hfunction with h | h | h <;> cases h

section Fixed

variable (hfixed : scope.settings.extent = some target) (hempty : target.isEmpty = false)

include hfixed hempty

theorem gives_call {function : Function} (hfunction : function.Combining)
    {arguments : List (Part ℚ V S)}
    (harguments : ∀ part ∈ arguments, part.value.AlignedTo target) :
    Run.Gives (fun part => part.value.Fills target) session (scope.call function arguments) := by
  intro part after hpart
  obtain ⟨value, computed, text, rfl, hcompute, -⟩ := exists_emit_of_call_eq_ok hpart
  have hvalue := (Run.from?_traced_eq_ok.mp hcompute).1
  rw [hfixed] at hvalue
  exact fills_compute hempty hfunction harguments _ [] value hvalue

end Fixed

-- By induction on the derivation. What was evaluated in front of a part has moved the session, and
-- the extent is on the lattices of the grids that are bound then.
mutual

theorem gives_evaluateLinks (hfixed : scope.settings.extent = some target)
    (hempty : target.isEmpty = false) : ∀ {chain : Chain} (depth : Nat) {session : Session ℚ V S},
    chain.Uses scope.IsPlain Function.Combining → session.AlignedTo scope.settings target →
    Run.Gives (LinksBring target chain.alone?) session (scope.evaluateLinks depth chain)
  | .last term, depth, session, huses, hsession => by
      rw [Scope.evaluateLinks]
      refine (gives_evaluateTerm hfixed hempty depth huses hsession).bind
        fun part between _ hpart => ?_
      refine (gives_link depth none part).bind fun link _ _ hlink => .pure ⟨hlink.2, ?_, ?_⟩
      · intro other hother
        rw [List.mem_singleton.mp hother, hlink.1]
        exact hpart.aligned
      · intro _
        rw [hlink.1]
        exact hpart
  | .join term op rest, depth, session, huses, hsession => by
      obtain ⟨hterm, hrest⟩ := huses
      rw [Scope.evaluateLinks]
      refine (gives_evaluateTerm hfixed hempty depth hterm hsession).bind
        fun part between hpart hbrings => ?_
      refine (gives_link depth (some op) part).bind fun first behind hfirst hlink => ?_
      have hmoves := (leads_evaluateTerm scope term depth session).moves_of_eq_ok hpart
      have hbehind : behind.AlignedTo scope.settings target := by
        obtain ⟨-, rfl⟩ := link_eq_ok.mp hfirst
        exact hsession.of_moves (hmoves.tail (.number between))
      refine (gives_evaluateLinks hfixed hempty depth hrest hbehind).bind
        fun others _ _ hothers => ?_
      have hjoined : first.action ≠ none := by rw [hlink.2]; exact Option.some_ne_none op
      refine .pure ⟨⟨hjoined, hothers.row⟩, List.forall_mem_cons.mpr ⟨?_, hothers.aligned⟩, ?_⟩
      · rw [hlink.1]
        exact hbrings.aligned
      · intro hnil
        cases hnil
  | .broken term wanted left, depth, session, huses, hsession => huses.elim

theorem gives_evaluateTerm (hfixed : scope.settings.extent = some target)
    (hempty : target.isEmpty = false) : ∀ {term : Term} (depth : Nat) {session : Session ℚ V S},
    term.Uses scope.IsPlain Function.Combining → session.AlignedTo scope.settings target →
    Run.Gives (fun part => Brings target term.alone? part.value) session
      (scope.evaluateTerm depth term)
  | .token text, depth, session, huses, hsession => by
      rw [Scope.evaluateTerm]
      refine (gives_resolveToken hsession huses).mono fun part hpart => ⟨hpart, fun hnone => ?_⟩
      cases hnone
  | .missing left, depth, session, huses, hsession => huses.elim
  | .group negated body, depth, session, huses, hsession => by
      rw [Scope.evaluateTerm]
      refine Run.Gives.bind (p := fun _ => True) (fun _ _ _ => trivial) fun _ _ hcheck _ => ?_
      obtain ⟨-, rfl⟩ := checkDepth_eq_ok.mp hcheck
      refine (gives_evaluateLinks hfixed hempty _ huses hsession).bind fun links _ _ hlinks => ?_
      refine (gives_merge hfixed hempty hlinks).bind fun result _ _ hresult => ?_
      intro part after hpart
      exact hresult.of_signed (signed_eq_ok.mp hpart).1
  | .call negated name arguments, depth, session, huses, hsession => by
      obtain ⟨⟨function, hname, hfunction⟩, harguments⟩ := huses
      rw [Scope.evaluateTerm, hname]
      refine (gives_evaluateArguments hfixed hempty _ harguments hsession).bind
        fun parts _ _ hparts => ?_
      refine (gives_call hfixed hempty hfunction hparts).bind fun result _ _ hresult => ?_
      intro part after hpart
      have hbrings : Brings target none result.value := brings_of_fills hresult
      exact hbrings.of_signed (signed_eq_ok.mp hpart).1

theorem gives_evaluateArguments (hfixed : scope.settings.extent = some target)
    (hempty : target.isEmpty = false) : ∀ {arguments : Arguments} (depth : Nat)
    {session : Session ℚ V S}, arguments.Uses scope.IsPlain Function.Combining →
    session.AlignedTo scope.settings target →
    Run.Gives (fun parts => ∀ part ∈ parts, part.value.AlignedTo target) session
      (scope.evaluateArguments depth arguments)
  | .none, depth, session, huses, hsession => by
      rw [Scope.evaluateArguments]
      exact .pure fun part hpart => absurd hpart List.not_mem_nil
  | .more first rest, depth, session, huses, hsession => by
      obtain ⟨hfirst, hrest⟩ := huses
      rw [Scope.evaluateArguments]
      refine Run.Gives.bind (p := fun _ => True) (fun _ _ _ => trivial) fun _ checked hcheck _ => ?_
      obtain ⟨-, rfl⟩ := checkDepth_eq_ok.mp hcheck
      refine (gives_evaluateLinks hfixed hempty depth hfirst hsession).bind
        fun links _ hlinking hlinks => ?_
      refine (gives_merge hfixed hempty hlinks).bind fun result _ hmerging hresult => ?_
      have hknown := leads_evaluateLinks scope first depth checked
      have hmerged := leads_merge scope (hknown.gives _ _ hlinking)
      have hmoved := (hsession.of_moves (hknown.moves_of_eq_ok hlinking)).of_moves
        (hmerged.moves_of_eq_ok hmerging)
      refine (gives_evaluateArguments hfixed hempty depth hrest hmoved).bind
        fun parts _ _ hparts => ?_
      exact .pure (List.forall_mem_cons.mpr ⟨hresult.aligned, hparts⟩)

end

/-- An expression of bound grids and constants gives a grid over the fixed extent, unless it is only
a name. -/
theorem gives_parse {settings : Settings ℚ V} {source : Text} {prepared : Prepared} {chain : Chain}
    (hfixed : settings.extent = some target) (hempty : target.isEmpty = false)
    (hsession : session.AlignedTo settings target)
    (hprepare : prepare source session.table.namesLongestFirst = .ok prepared)
    (hspells : chain.Spells prepared.text)
    (huses : chain.Uses (Scope.IsPlain ⟨settings, prepared⟩) Function.Combining) :
    Run.Gives (fun found => Brings target chain.alone? found.1) session
      (parse settings source : Run ℚ V S (Operand ℚ V S × Provenance)) := by
  have hevaluate : Run.Gives (fun found => Brings target chain.alone? found.1) session
      (evaluate settings prepared : Run ℚ V S (Operand ℚ V S × Provenance)) := by
    rw [evaluate_of_spells settings hspells]
    refine Run.Gives.bind (p := fun _ => True) (fun _ _ _ => trivial) fun _ _ hcheck _ => ?_
    obtain ⟨-, rfl⟩ := checkDepth_eq_ok.mp hcheck
    have hscope : (⟨settings, prepared⟩ : Scope ℚ V).settings.extent = some target := hfixed
    refine (gives_evaluateLinks hscope hempty 0 huses hsession).bind fun links _ _ hlinks => ?_
    exact (gives_merge hscope hempty hlinks).bind fun result _ _ hresult => .pure hresult
  intro found after hfound
  exact hevaluate found after ((from?_parse_of_prepare hprepare).symm.trans hfound)

/-- With a fixed extent, every grid that an expression computes from bound grids and constants has
this extent, unless the expression is only a name: the extent is longer than the tolerance in both
directions and on the lattices of the bound grids. Without a fixed extent, an operator, the minimum
and the maximum give the extent of the first grid among their operands, and a condition gives the
extent around all of its grids, for grids on one lattice. All of them have a result. -/
theorem extents_of_results (settings : Settings ℚ V) :
    (∀ (target : Extent ℚ) (session after : Session ℚ V S) (source : Text) (prepared : Prepared)
        (chain : Chain) (result : Grid ℚ V S) (provenance : Provenance),
      settings.extent = some target → target.isEmpty = false →
      session.AlignedTo settings target →
      prepare source session.table.namesLongestFirst = .ok prepared →
      chain.Spells prepared.text →
      chain.Uses (Scope.IsPlain ⟨settings, prepared⟩) Function.Combining → chain.alone? = none →
      Run.from? session (parse settings source) = (.ok (.grid result, provenance), after) →
        result.extent = target) ∧
    ∀ (lattice : CellLattice) (prepared : Prepared) (condition left right : Part ℚ V S)
        (a b : Operand ℚ V S), settings.extent = none →
      Scope.nodataResolved left right = (a, b) →
      (∀ part ∈ [condition, left, right], part.value.LiesOn lattice) →
      (∀ op, Traced.Succeeds (fun value => value.extent? = ([a, b].filterMap extent?).head?)
        (Scope.combine ⟨settings, prepared⟩ left op right)) ∧
      (∀ function : Function, function = .minimum ∨ function = .maximum →
        Traced.Succeeds
          (fun value => value.extent? = ([left.value, right.value].filterMap extent?).head?)
          (function.compute settings.extent prepared [left, right])) ∧
      Traced.Succeeds (fun value => value.extent? =
          Extent.around? ([condition.value, left.value, right.value].filterMap extent?))
        (Function.ifThenElse.compute settings.extent prepared [condition, left, right]) := by
  constructor
  · intro target session after source prepared chain result provenance hfixed hempty haligned
      hprepare hspells huses halone hparse
    have hbrings := gives_parse hfixed hempty haligned hprepare hspells huses _ _ hparse
    exact (hbrings.fills halone result rfl).2
  · intro lattice prepared condition left right a b hfixed hresolved hlies
    have hleft := hlies left (by simp)
    have hright := hlies right (by simp)
    refine ⟨fun op => ?_, fun function hfunction => ?_, ?_⟩
    · have hcombines := combines_combine ⟨settings, prepared⟩ hresolved op
      rw [hfixed] at hcombines
      exact hcombines.extent?_eq (eachGrid_nodataResolved hresolved hleft hright)
    · have hvalues : ∀ operand ∈ [left.value, right.value], operand.LiesOn lattice := by
        simpa using ⟨hleft, hright⟩
      rw [hfixed]
      rcases hfunction with rfl | rfl
      · exact (combines_extremum none .minimum .greater left.value right.value).extent?_eq hvalues
      · exact (combines_extremum none .maximum .lesser left.value right.value).extent?_eq hvalues
    · rw [hfixed]
      exact (combines_choose none condition left right).extent?_eq (by simpa using hlies)

section Instance

/-- The cell next to the one of the first grid. -/
def nextCell : Extent ℚ := ⟨1, 0, 2, 1⟩

def onNextCell : Settings ℚ Float where
  extent := some nextCell

def partOf (grid : Grid ℚ Float Float32) (token : String) : Part ℚ Float Float32 :=
  ⟨.grid grid, .variable, token.toList⟩

theorem regular_oneCell : oneCell.Regular :=
  ⟨consistent_oneCell, by norm_num [oneCell], by norm_num [oneCell]⟩

theorem regular_twoCells : twoCells.Regular :=
  ⟨consistent_twoCells, by norm_num [twoCells], by norm_num [twoCells]⟩

theorem twoCells_liesOn : twoCells.LiesOn oneCell.lattice :=
  ⟨⟨⟨0, by norm_num [oneCell, twoCells, Grid.lattice]⟩,
    ⟨0, by norm_num [oneCell, twoCells, Grid.lattice]⟩,
    ⟨2, by norm_num [oneCell, twoCells, Grid.lattice]⟩,
    ⟨1, by norm_num [oneCell, twoCells, Grid.lattice]⟩⟩, rfl, rfl⟩

theorem nextCell_on : nextCell.On oneCell.lattice :=
  ⟨⟨1, by norm_num [oneCell, nextCell, Grid.lattice]⟩,
    ⟨0, by norm_num [oneCell, nextCell, Grid.lattice]⟩,
    ⟨2, by norm_num [oneCell, nextCell, Grid.lattice]⟩,
    ⟨1, by norm_num [oneCell, nextCell, Grid.lattice]⟩⟩

theorem isEmpty_nextCell : nextCell.isEmpty = false :=
  Extent.isEmpty_eq_false_iff.mpr
    ⟨by norm_num [nextCell, Extent.width], by norm_num [nextCell, Extent.height]⟩

theorem alignedTo_twoGrids (settings : Settings ℚ Float) :
    twoGrids.AlignedTo settings nextCell := by
  refine Session.alignedTo_of_bindings ⟨by decide, by decide⟩ ?_
  refine List.forall_mem_cons.mpr ⟨?_, List.forall_mem_singleton.mpr ?_⟩
  · exact eachGrid_grid ⟨regular_oneCell, nextCell_on⟩
  · exact eachGrid_grid ⟨regular_twoCells, twoCells_liesOn.on nextCell_on⟩

theorem liesOn_twoGrids : ∀ operand ∈ [Operand.grid oneCell, .grid twoCells],
    operand.LiesOn oneCell.lattice :=
  List.forall_mem_cons.mpr ⟨eachGrid_grid ⟨regular_oneCell, regular_oneCell.liesOn⟩,
    List.forall_mem_singleton.mpr (eachGrid_grid ⟨regular_twoCells, twoCells_liesOn⟩)⟩

theorem spells_addition : (Chain.join (.token (placeholder 0)) .add
    (.last (.token (placeholder 1)))).Spells addition.text :=
  .join (.token (isToken_placeholder 0))
    (fun hawaits => absurd hawaits (not_awaitsSign_placeholder 0))
    (.last (.token (isToken_placeholder 1)))

theorem exists_parse_onNextCell : ∃ result provenance after,
    Run.from? twoGrids (parse onNextCell "A+B".toList) =
      (.ok (.grid result, provenance), after) := by
  let scope : Scope ℚ Float := ⟨onNextCell, addition⟩
  have hfirst : Run.from? twoGrids (scope.resolveToken (placeholder 0)) = _ :=
    resolveToken_eq_ok.mpr (.name (literal?_placeholder 0)
      (.variable (by decide : addition.name? _ = some "A".toList) rfl rfl rfl) .plain)
  have hsecond : Run.from? { twoGrids with counter := 1 }
      (scope.resolveToken (placeholder 1)) = _ :=
    resolveToken_eq_ok.mpr (.name (literal?_placeholder 1)
      (.variable (by decide : addition.name? _ = some "B".toList) rfl rfl rfl) .plain)
  have hmeets : Meets scope.settings.extent .first [.grid oneCell, .grid twoCells] nextCell :=
    meets_fixed .first isEmpty_nextCell ⟨.grid oneCell, List.mem_cons_self, rfl⟩
      (aligned_of_on liesOn_twoGrids nextCell_on)
  have hresolved : Scope.nodataResolved (partOf oneCell "A") (partOf twoCells "B") =
      (.grid oneCell, .grid twoCells) := rfl
  obtain ⟨value, later, hrun, result, rfl, -⟩ := succeeds_combine hresolved hmeets .add []
  obtain ⟨hexists, -⟩ := parse_pair_eq_ok prepare_addition (by decide)
    (isToken_placeholder 0) (not_awaitsSign_placeholder 0) (isToken_placeholder 1)
    (by decide) hfirst hsecond (congrArg Prod.fst hrun)
  obtain ⟨provenance, after, hparse⟩ := hexists rfl
  exact ⟨result, provenance, after, hparse⟩

/-- The sum has the fixed extent, which is that of neither grid. -/
theorem extents_of_addition :
    (∃ result provenance after, nextCell.isEmpty = false ∧
      twoGrids.AlignedTo onNextCell nextCell ∧
      Run.from? twoGrids (parse onNextCell "A+B".toList) =
        (.ok (.grid result, provenance), after) ∧ result.extent = nextCell) ∧
    Traced.Succeeds (fun value => value.extent? = some oneCell.extent)
      (Scope.combine ⟨{}, addition⟩ (partOf oneCell "A") .add (partOf twoCells "B")) ∧
    Traced.Succeeds (fun value => value.extent? = some oneCell.extent)
      (Function.minimum.compute none addition [partOf oneCell "A", partOf twoCells "B"]) ∧
    Traced.Succeeds (fun value => value.extent? = some twoCells.extent)
      (Function.ifThenElse.compute none addition
        [partOf oneCell "A", partOf oneCell "A", partOf twoCells "B"]) := by
  constructor
  · have hempty : nextCell.isEmpty = false := by decide +kernel
    have haligned := alignedTo_twoGrids onNextCell
    obtain ⟨result, provenance, after, hparse⟩ := exists_parse_onNextCell
    exact ⟨result, provenance, after, hempty, haligned, hparse,
      (extents_of_results onNextCell).1 nextCell twoGrids after "A+B".toList addition _
        result provenance rfl hempty haligned prepare_addition spells_addition
        ⟨.inr (.inl (by decide +kernel)), .inr (.inl (by decide))⟩ rfl hparse⟩
  · obtain ⟨hcombine, hextremum, hchoose⟩ := (extents_of_results ({} : Settings ℚ Float)).2
      oneCell.lattice addition (partOf oneCell "A") (partOf oneCell "A") (partOf twoCells "B")
      (.grid oneCell) (.grid twoCells) rfl rfl (List.forall_mem_cons.mpr
        ⟨liesOn_twoGrids _ List.mem_cons_self, by simpa [partOf] using liesOn_twoGrids⟩)
    have haround : Extent.around? [oneCell.extent, oneCell.extent, twoCells.extent] =
        some twoCells.extent := by decide
    exact ⟨hcombine .add, hextremum .minimum (.inl rfl), haround ▸ hchoose⟩

end Instance

end Expression

end MapAlgebra
