import MapAlgebra.Proofs.Pairs
import MapAlgebra.Proofs.Substitutes

/-!
# Expressions that have a value

A part of an expression yields a value when it is evaluated to it in every session with a certain
property, and the property is kept: that the names of the expression are bound to certain grids, for
instance. Tokens, pairs of tokens and calls of functions yield what their parts make of them, and
an expression of parts that yield has a value.
-/

namespace MapAlgebra.Expression

variable {K V S : Type} [Coordinate K] [Number V] [Cell S V] [Conversion K V]

/-- A property of sessions that does not hang on the count of expressions and the log. -/
structure IsSteady (holds : Session K V S → Prop) : Prop where
  counter : ∀ session counter, holds session → holds { session with counter }
  record : ∀ session record, holds session → holds (session.addRecord record)

omit [Coordinate K] [Number V] [Cell S V] [Conversion K V] in
theorem IsSteady.foldl {holds : Session K V S → Prop} (h : IsSteady holds) (records : List Record)
    {session : Session K V S} (hsession : holds session) :
    holds (records.foldl Session.addRecord session) := by
  induction records generalizing session with
  | nil => exact hsession
  | cons record records ih => exact ih (h.record session record hsession)

/-- A part with a value, which is not the keyword for no data. -/
structure Part.Shows (part : Part K V S) (value : Operand K V S) : Prop where
  value : part.value = value
  token : isNodataToken part.token = false

/-- A term is evaluated to a value where a property holds, which is kept. -/
def Scope.YieldsTerm (scope : Scope K V) (holds : Session K V S → Prop) (term : Term)
    (value : Operand K V S) : Prop :=
  ∀ depth session, holds session →
    ∃ part after, TermMeans scope depth session term part after ∧ part.Shows value ∧ holds after

/-- A chain is evaluated to a value where a property holds, which is kept. -/
def Scope.Yields (scope : Scope K V) (holds : Session K V S → Prop) (chain : Chain)
    (value : Operand K V S) : Prop :=
  ∀ depth session, holds session →
    ∃ part after, ChainMeans scope depth session chain part after ∧ part.Shows value ∧ holds after

/-- Arguments are evaluated to values where a property holds, which is kept. -/
def Scope.YieldsAll (scope : Scope K V) (holds : Session K V S → Prop) (arguments : Arguments)
    (values : List (Operand K V S)) : Prop :=
  ∀ depth session, holds session →
    ∃ parts after, ArgumentsMean scope depth session arguments parts after ∧
      List.Forall₂ Part.Shows parts values ∧ holds after

namespace Scope

variable {scope : Scope K V} {holds : Session K V S → Prop} {value : Operand K V S}

omit [Conversion K V] in
theorem from?_emit (htraces : scope.settings.traces = false) (id text : Text)
    (value : Operand K V S) (session : Session K V S) :
    Run.from? session (emit scope.settings id text value) = (.ok (), session) := by
  unfold emit
  rw [htraces]
  rfl

omit [Coordinate K] [Number V] [Cell S V] [Conversion K V] in
theorem exists_from?_traced {α : Type} {computation : Traced α} {a : α}
    (h : Traced.Succeeds (· = a) computation) (hsteady : IsSteady holds)
    {session : Session K V S} (hsession : holds session) :
    ∃ after, Run.from? session (Run.traced computation) = (.ok a, after) ∧ holds after := by
  obtain ⟨_, records, hrun, rfl⟩ := h []
  refine ⟨_, Run.from?_traced_eq_ok.mpr ⟨congrArg Prod.fst hrun, rfl⟩, ?_⟩
  exact hsteady.foldl _ hsession

theorem YieldsTerm.last {term : Term} (h : scope.YieldsTerm holds term value)
    (hsteady : IsSteady holds) : scope.Yields holds (.last term) value := by
  intro depth session hsession
  obtain ⟨part, between, hterm, hshows, hbetween⟩ := h depth session hsession
  let after : Session K V S := { between with counter := between.counter + 1 }
  let only : Link K V S := ⟨part, none, expressionId (between.counter + 1), depth⟩
  have hmerge : Run.from? after (scope.merge only []) = (.ok only, after) := by
    rw [merge_single scope rfl]
    rfl
  exact ⟨part, after, .merged (.last hterm (link_eq_ok.mpr ⟨rfl, rfl⟩)) hmerge, hshows,
    hsteady.counter between _ hbetween⟩

/-- Two terms with an operator between them yield what they are combined to. -/
theorem YieldsTerm.join {first second : Term} {a b : Operand K V S} {op : Operator}
    (hfirst : scope.YieldsTerm holds first a) (hsecond : scope.YieldsTerm holds second b)
    (hsteady : IsSteady holds) (htraces : scope.settings.traces = false)
    (hcombine : ∀ left right : Part K V S, left.Shows a → right.Shows b →
      Traced.Succeeds (· = value) (scope.combine left op right)) :
    scope.Yields holds (.join first op (.last second)) value := by
  intro depth session hsession
  obtain ⟨left, between, hleft, hshows, hbetween⟩ := hfirst depth session hsession
  let front : Link K V S := ⟨left, some op, expressionId (between.counter + 1), depth⟩
  obtain ⟨right, behind, hright, hshows', hbehind⟩ := hsecond depth
    { between with counter := between.counter + 1 } (hsteady.counter between _ hbetween)
  let back : Link K V S := ⟨right, none, expressionId (behind.counter + 1), depth⟩
  let linked : Session K V S := { behind with counter := behind.counter + 1 }
  let numbered : Session K V S := { linked with counter := linked.counter + 1 }
  obtain ⟨after, hcombined, hafter⟩ := exists_from?_traced (hcombine left right hshows hshows')
    hsteady (hsteady.counter linked (linked.counter + 1) (hsteady.counter behind _ hbehind))
  let id : Text := expressionId (linked.counter + 1)
  have hmerge : Run.from? linked (scope.merge front [back]) =
      (.ok ⟨⟨value, .complex, id⟩, none, id, depth⟩, after) := by
    rw [merge_pair scope rfl rfl]
    refine Run.from?_bind_eq_ok.mpr ⟨id, numbered, rfl, ?_⟩
    refine Run.from?_bind_eq_ok.mpr ⟨value, after, hcombined, ?_⟩
    exact Run.from?_bind_eq_ok.mpr ⟨(), after, from?_emit htraces _ _ _ _, rfl⟩
  have hoperands : OperandsMean scope depth session (.join first op (.last second))
      (front, [back]) linked :=
    .join hleft (link_eq_ok.mpr ⟨rfl, rfl⟩) (.last hright (link_eq_ok.mpr ⟨rfl, rfl⟩))
  exact ⟨_, after, .merged hoperands hmerge, ⟨rfl, isNodataToken_expressionId _⟩, hafter⟩

theorem yieldsAll_none : scope.YieldsAll holds .none [] :=
  fun _ session hsession => ⟨[], session, .none, .nil, hsession⟩

theorem Yields.more {chain : Chain} {rest : Arguments} {values : List (Operand K V S)}
    (h : scope.Yields holds chain value) (hrest : scope.YieldsAll holds rest values) :
    scope.YieldsAll holds (.more chain rest) (value :: values) := by
  intro depth session hsession
  obtain ⟨part, between, hmeans, hshows, hbetween⟩ := h depth session hsession
  obtain ⟨parts, after, hmeans', hshows', hafter⟩ := hrest depth between hbetween
  exact ⟨part :: parts, after, .more hmeans hmeans', .cons hshows hshows', hafter⟩

/-- A call yields what its function makes of the values of its arguments. -/
theorem YieldsAll.call {name : Text} {function : Function} {arguments : Arguments}
    {values : List (Operand K V S)} (h : scope.YieldsAll holds arguments values)
    (hname : Function.ofName? name = some function) (hcount : function.admits values.length)
    (hsteady : IsSteady holds) (htraces : scope.settings.traces = false)
    (hcompute : ∀ parts, List.Forall₂ Part.Shows parts values → Traced.Succeeds (· = value)
      (function.compute scope.settings.extent scope.prepared parts)) :
    scope.YieldsTerm holds (.call false name arguments) value := by
  intro depth session hsession
  obtain ⟨parts, between, hmeans, hshows, hbetween⟩ := h (depth + 1) session hsession
  obtain ⟨behind, hcomputed, hbehind⟩ :=
    exists_from?_traced (hcompute parts hshows) hsteady hbetween
  let after : Session K V S := { behind with counter := behind.counter + 1 }
  let id : Text := expressionId (behind.counter + 1)
  have hcall : Run.from? between (scope.call function parts) =
      (.ok ⟨value, function.provenance, id⟩, after) := by
    refine Run.from?_bind_eq_ok.mpr ⟨value, behind, hcomputed, ?_⟩
    refine Run.from?_bind_eq_ok.mpr ⟨id, after, rfl, ?_⟩
    exact Run.from?_bind_eq_ok.mpr ⟨(), after, from?_emit htraces _ _ _ _, rfl⟩
  refine ⟨_, after, .call hname hmeans ?_ hcall .plain, ⟨rfl, isNodataToken_expressionId _⟩,
    hsteady.counter behind _ hbehind⟩
  rw [hshows.length_eq]
  exact hcount

end Scope

/-- An expression that is spelled by a chain has the value that the chain yields. -/
theorem Scope.Yields.exists_parse_eq_ok {settings : Settings K V} {prepared : Prepared}
    {holds : Session K V S → Prop} {chain : Chain} {value : Operand K V S}
    (h : (⟨settings, prepared⟩ : Scope K V).Yields holds chain value) {session : Session K V S}
    (hsession : holds session) {source : Text}
    (hprepare : prepare source session.table.namesLongestFirst = .ok prepared)
    (hspells : chain.Spells prepared.text) (hnesting : (chain.nesting : Int) ≤ settings.maxDepth) :
    ∃ provenance after, Run.from? session (parse settings source) =
      (.ok (value, provenance), after) ∧ holds after := by
  obtain ⟨part, after, hmeans, hshows, hafter⟩ := h 0 session hsession
  have hparse := hmeans.parse_eq_ok hprepare hspells hnesting
  rw [hshows.value] at hparse
  exact ⟨_, after, hparse, hafter⟩

end MapAlgebra.Expression
