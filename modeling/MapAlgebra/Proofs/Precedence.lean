import MapAlgebra.Expression.Evaluation
import MapAlgebra.Number.Double
import MapAlgebra.Proofs.Merging
import MapAlgebra.Proofs.Run

/-!
# Precedence

The links of a chain are merged by the tree that divides them at the last operator of lowest
priority. The value of the result is the value of that tree, and every merge takes one number.
-/

namespace MapAlgebra.Expression

variable {K V S : Type} [Coordinate K] [Number V] [Cell S V]
variable {session after : Session K V S}

/-- Recording a result logs and, with tracing on, writes one file. -/
theorem keeps_emit {R : Session K V S → Session K V S → Prop} [Std.Refl R]
    [IsTrans (Session K V S) R] {settings : Settings K V} {id text : Text} {value : Operand K V S}
    (hrecord : ∀ session record, R session (session.addRecord record))
    (hwrite : ∀ grid metadata session, settings.traces → value = .grid grid →
      R session { session with
        files := (grid.write (tracePath settings session.files id) metadata session.files).2 }) :
    Run.Keeps R (emit settings id text value) := by
  unfold emit
  refine Run.Keeps.ite (fun htraces => ?_) fun _ => Run.Keeps.pure ()
  refine Run.Keeps.bind (Run.Keeps.record hrecord _ _) fun _ => ?_
  cases value with
  | constant c => exact Run.Keeps.record hrecord _ _
  | grid g =>
      refine Run.Keeps.get_bind fun session => ?_
      refine Run.Keeps.bind_at ?_ fun _ => Run.Keeps.record hrecord _ _
      rw [Run.from?_changeFiles]
      exact hwrite g _ session htraces rfl

/-- A number was not taken. -/
def SameCounter (session after : Session K V S) : Prop :=
  after.counter = session.counter

instance : Std.Refl (SameCounter (K := K) (V := V) (S := S)) := ⟨fun _ => rfl⟩

instance : IsTrans (Session K V S) SameCounter := ⟨fun _ _ _ h h' => h'.trans h⟩

theorem emit_sameCounter (settings : Settings K V) (id text : Text) (value : Operand K V S) :
    Run.Keeps SameCounter (emit settings id text value) :=
  keeps_emit Session.counter_addRecord fun _ _ _ _ _ => rfl

/-- The name of a number is not the keyword for no data. -/
theorem isNodataToken_expressionId (number : Nat) : isNodataToken (expressionId number) = false :=
  rfl

namespace Scope

/-- The value of a tree of merges, the parts of a merge before the merge. What a merge gives has no
token, so the keyword for no data counts where it is an operand and not where it was merged. -/
def treePart (scope : Scope K V) : Merging (Part K V S) → Except Fault (Part K V S)
  | .operand part => .ok part
  | .merge left op right => do
      let a ← scope.treePart left
      let b ← scope.treePart right
      return ⟨← (scope.combine a op b).outcome.1, .complex, []⟩

variable {scope : Scope K V}

/-- A combination depends on the values of the parts and on whether they are the keyword. -/
theorem combine_congr {left left' right right' : Part K V S} (op : Operator)
    (hleft : left.value = left'.value)
    (hleftToken : isNodataToken left.token = isNodataToken left'.token)
    (hright : right.value = right'.value)
    (hrightToken : isNodataToken right.token = isNodataToken right'.token) :
    scope.combine left op right = scope.combine left' op right' := by
  have hresolved : nodataResolved left right = nodataResolved left' right' := by
    unfold nodataResolved
    rw [hleft, hleftToken, hright, hrightToken]
  unfold combine
  rw [hresolved]

/-- A merge that succeeds takes a number, combines the operands and records the result. -/
theorem exists_emit_of_mergeLinks_eq_ok {left right link : Link K V S} {op : Operator}
    (h : Run.from? session (scope.mergeLinks left op right) = (.ok link, after)) :
    ∃ value combined text,
      link = ⟨⟨value, .complex, expressionId (session.counter + 1)⟩, right.action,
        expressionId (session.counter + 1), left.depth⟩ ∧
      Run.from? { session with counter := session.counter + 1 }
        (Run.traced (scope.combine left.toPart op right.toPart)) = (.ok value, combined) ∧
      Run.from? combined (emit scope.settings (expressionId (session.counter + 1)) text value) =
        (.ok (), after) := by
  unfold mergeLinks at h
  obtain ⟨id, numbered, hid, hbehind⟩ := Run.from?_bind_eq_ok.mp h
  obtain ⟨value, combined, hcombine, hemitting⟩ := Run.from?_bind_eq_ok.mp hbehind
  obtain ⟨_, emitted, hemit, hreturn⟩ := Run.from?_bind_eq_ok.mp hemitting
  obtain ⟨rfl, rfl⟩ := Run.from?_nextId_eq_ok.mp hid
  obtain ⟨rfl, rfl⟩ := Run.from?_pure_eq_ok.mp hreturn
  exact ⟨value, combined, _, rfl, hcombine, hemit⟩

/-- A merge that succeeds combines the operands and takes one number. -/
theorem mergeLinks_eq_ok {left right link : Link K V S} {op : Operator}
    (h : Run.from? session (scope.mergeLinks left op right) = (.ok link, after)) :
    (scope.combine left.toPart op right.toPart).outcome.1 = .ok link.value ∧
      isNodataToken link.token = false ∧ after.counter = session.counter + 1 := by
  obtain ⟨value, combined, text, rfl, hcombine, hemit⟩ := exists_emit_of_mergeLinks_eq_ok h
  obtain ⟨hvalue, rfl⟩ := Run.from?_traced_eq_ok.mp hcombine
  -- writing a result takes no number
  have hcounter : after.counter = _ := (emit_sameCounter _ _ _ _).of_eq_ok hemit
  refine ⟨hvalue, isNodataToken_expressionId _, ?_⟩
  rw [hcounter, Session.counter_foldl_addRecord]

/-- The merges of a tree give its value and take as many numbers as there are merges. -/
theorem reduce_mergeLinks_eq_ok {tree : Merging (Link K V S)} {link : Link K V S}
    (h : Run.from? session (tree.reduce scope.mergeLinks) = (.ok link, after)) :
    ∃ part, scope.treePart (tree.map Link.toPart) = .ok part ∧ part.value = link.value ∧
      isNodataToken part.token = isNodataToken link.token ∧
      after.counter = session.counter + tree.count := by
  induction tree generalizing session link after with
  | operand first =>
      rw [Merging.reduce] at h
      obtain ⟨rfl, rfl⟩ := Run.from?_pure_eq_ok.mp h
      exact ⟨first.toPart, rfl, rfl, rfl, rfl⟩
  | merge left op right ihl ihr =>
      rw [Merging.reduce] at h
      obtain ⟨a, between, ha, hbehind⟩ := Run.from?_bind_eq_ok.mp h
      obtain ⟨b, merging, hb, hstep⟩ := Run.from?_bind_eq_ok.mp hbehind
      obtain ⟨p, hp, hpvalue, hptoken, hpcounter⟩ := ihl ha
      obtain ⟨q, hq, hqvalue, hqtoken, hqcounter⟩ := ihr hb
      obtain ⟨hvalue, htoken, hcounter⟩ := mergeLinks_eq_ok hstep
      refine ⟨⟨link.value, .complex, []⟩, ?_, rfl, ?_, ?_⟩
      -- a token counts only as the keyword, which neither the name of a merge nor no token is
      · have hcombine : scope.combine p op q = scope.combine a.toPart op b.toPart :=
          combine_congr op hpvalue hptoken hqvalue hqtoken
        rw [← hcombine] at hvalue
        simp only [Merging.map, treePart, hp, hq, bind, Except.bind, hvalue]
        rfl
      · rw [htoken]
        rfl
      · rw [hcounter, hqcounter, hpcounter, Merging.count]
        omega

theorem run_mergeRow_eq_reduce (scope : Scope K V) {first : Link K V S} {rest : List (Link K V S)}
    (hrow : IsRow ((first :: rest).map Link.placed)) :
    (mergeRow scope.mergeLinks ((first :: rest).map Link.placed)).run =
      some <$> (bySplitting first (joins first.action (rest.map Link.placed))).reduce
        scope.mergeLinks := by
  rw [List.map_cons, mergeRow_eq_bySplitting _ hrow]
  rfl

theorem merge_eq_reduce (scope : Scope K V) {first : Link K V S} {rest : List (Link K V S)}
    (hrow : IsRow ((first :: rest).map Link.placed)) :
    scope.merge first rest =
      (bySplitting first (joins first.action (rest.map Link.placed))).reduce scope.mergeLinks := by
  rw [merge, run_mergeRow_eq_reduce scope hrow, map_eq_pure_bind, bind_assoc]
  simp only [pure_bind, bind_pure]

/-- A chain of one link is what the link is. -/
theorem merge_single (scope : Scope K V) {link : Link K V S} (h : link.action = none) :
    scope.merge link [] = pure link := by
  have hrow : IsRow ([link].map Link.placed) := h
  rw [merge_eq_reduce scope hrow, h]
  show (bySplitting link []).reduce _ = _
  rw [bySplitting_nil]
  rfl

/-- The links of a chain are always merged to the last one, by the merges of the tree that divides
the chain at the last operator of lowest priority. There is one merge less than there are links,
each takes one number, and what they give is the value of the tree. -/
theorem merge_eq_bySplitting (scope : Scope K V) (first : Link K V S) (rest : List (Link K V S))
    (hrow : IsRow ((first :: rest).map Link.placed)) :
    let tree := bySplitting first (joins first.action (rest.map Link.placed))
    (mergeRow scope.mergeLinks ((first :: rest).map Link.placed)).run =
        some <$> tree.reduce scope.mergeLinks ∧
      scope.merge first rest = tree.reduce scope.mergeLinks ∧
      tree.count = rest.length ∧
      ∀ (session after : Session K V S) (link : Link K V S),
        Run.from? session (scope.merge first rest) = (.ok link, after) →
          after.counter = session.counter + rest.length ∧
            ∃ part, scope.treePart (tree.map Link.toPart) = .ok part ∧ part.value = link.value := by
  intro tree
  have hmerge : scope.merge first rest = tree.reduce scope.mergeLinks := merge_eq_reduce scope hrow
  have hcount : tree.count = rest.length := by
    rw [Merging.count_eq_length_rest, rest_bySplitting]
    exact hrow.length_joins.trans (List.length_map _)
  refine ⟨run_mergeRow_eq_reduce scope hrow, hmerge, hcount, fun session after link h => ?_⟩
  rw [hmerge] at h
  obtain ⟨part, hpart, hvalue, -, hcounter⟩ := reduce_mergeLinks_eq_ok h
  exact ⟨hcount ▸ hcounter, part, hpart, hvalue⟩

/-- A number with an operator behind it. -/
def numberLink (value : Float) (action : Option Operator) : Link Float Float Float32 :=
  ⟨⟨.constant (.of value), .constant, (Number.general value).toList⟩, action, [], 0⟩

theorem merge_two_plus_three_times_four :
    let scope : Scope Float Float := ⟨{}, ⟨[], [], []⟩⟩
    let two := numberLink 2 (some .add)
    let three := numberLink 3 (some .multiply)
    let four := numberLink 4 none
    IsRow ([two, three, four].map Link.placed) ∧
      scope.merge two [three, four] = (do
        let product ← scope.mergeLinks three .multiply four
        scope.mergeLinks two .add product) := by
  intro scope two three four
  have hrow : IsRow ([two, three, four].map Link.placed) :=
    ⟨Option.some_ne_none _, Option.some_ne_none _, rfl⟩
  obtain ⟨-, hmerge, -, -⟩ := merge_eq_bySplitting scope two [three, four] hrow
  have htree : bySplitting two [(.add, three), (.multiply, four)] =
      .merge (.operand two) .add (.merge (.operand three) .multiply (.operand four)) := by
    have hsum : weakest? [(.add, three), (.multiply, four)] =
        some ([], (.add, three), [(.multiply, four)]) := rfl
    have hproduct : weakest? [(.multiply, four)] = some ([], (.multiply, four), []) := rfl
    rw [bySplitting_of_weakest? hsum, bySplitting_of_weakest? hproduct]
    simp only [bySplitting_nil]
  refine ⟨hrow, hmerge.trans ?_⟩
  show (bySplitting two [(.add, three), (.multiply, four)]).reduce scope.mergeLinks = _
  rw [htree]
  simp only [Merging.reduce, pure_bind]

end Scope

end MapAlgebra.Expression
