import MapAlgebra.Proofs.Advances
import MapAlgebra.Proofs.Parsing

/-!
# Two names with an operator between them

In a prepared expression a variable is a placeholder. Two of them with an operator between them are
looked up one after the other and merged once.
-/

namespace MapAlgebra.Expression

section Placeholders

variable {token bound : Text}

theorem isDigit_of_isDigit {c : Char} (h : c.isDigit) : Text.isDigit c := by
  have hcode : 48 ≤ c.toNat ∧ c.toNat ≤ 57 := by
    simpa [Char.isDigit, UInt32.le_iff_toNat_le] using h
  have hlow : c.toNat < 128 := by omega
  unfold Text.isDigit Text.digit?
  simp only [hlow, if_true, hcode, decide_true, Bool.and_true, Option.isSome_some]

theorem isPlain_placeholder (index : Nat) : ∀ c ∈ placeholder index, isPlain c := by
  intro c hc
  have hmark : isPlain '#' := by decide
  rcases List.mem_cons.mp hc with rfl | hc
  · exact hmark
  · rcases List.mem_append.mp hc with hc | hc
    · exact isPlain_of_isDigit
        (isDigit_of_isDigit (Nat.isDigit_of_mem_toDigits (by decide) (by decide) hc))
    · rw [List.mem_singleton.mp hc]
      exact hmark

theorem isToken_placeholder (index : Nat) : IsToken (placeholder index) :=
  ⟨List.cons_ne_nil _ _, false, _, .plain (isPlain_placeholder index), rfl⟩

/-- A placeholder is no mantissa, so that an operator may follow. -/
theorem not_awaitsSign_placeholder (index : Nat) : ¬ AwaitsSign (placeholder index) := by
  have hmark : (placeholder index).getLast? = some '#' := by
    unfold placeholder
    rw [List.getLast?_append]
    rfl
  rintro ⟨negated, mantissa, ⟨hnumber, hletter⟩, heq⟩
  rw [heq, List.getLast?_append, List.getLast?_concat] at hmark
  rcases hletter with rfl | rfl <;> cases hmark

theorem literal?_placeholder {V : Type} [Number V] (index : Nat) :
    (literal? (placeholder index) : Option V) = none :=
  rfl

theorem prepare_eq_ok {source : Text} {names : List Text} {prepared : Prepared}
    (h : prepare source names = .ok prepared) :
    prepared = Prepared.substituteAll { source, text := Text.squeeze source } names := by
  unfold prepare at h
  dsimp only at h
  split at h
  next => cases h
  next =>
    cases hparentheses : checkParentheses (Text.squeeze source) with
    | error fault =>
        rw [hparentheses] at h
        cases h
    | ok done =>
        rw [hparentheses] at h
        exact (Except.ok.inj h).symm

/-- What holds of an expression and of every substitution of a placeholder in it holds of the
prepared expression. -/
theorem prepare_induction {source : Text} {names : List Text} {prepared : Prepared}
    {p : Prepared → Prop} (h : prepare source names = .ok prepared)
    (hsource : p { source, text := Text.squeeze source })
    (hstep : ∀ before index name, (name, index) ∈ names.zipIdx → p before →
      p (before.substitute (placeholder index) name)) : p prepared := by
  have hfold (entries : List (Text × Nat)) : ∀ before : Prepared, p before →
      (∀ entry ∈ entries, entry ∈ names.zipIdx) →
        p (entries.foldl (fun prepared entry =>
          prepared.substitute (placeholder entry.2) entry.1) before) := by
    induction entries with
    | nil => exact fun _ hbefore _ => hbefore
    | cons entry entries ih =>
        intro before hbefore hentries
        refine ih _ (hstep _ _ _ (hentries entry List.mem_cons_self) hbefore) fun other hother => ?_
        exact hentries other (List.mem_cons_of_mem _ hother)
  rw [prepare_eq_ok h]
  exact hfold _ _ hsource fun _ hentry => hentry

/-- Only placeholders stand for names, each for the one of its number. -/
theorem exists_mem_of_name? {source : Text} {names : List Text} {prepared : Prepared}
    (h : prepare source names = .ok prepared) (hname : prepared.name? token = some bound) :
    ∃ index, token = placeholder index ∧ (bound, index) ∈ names.zipIdx := by
  -- every name that is replaced adds an entry for its placeholder
  have hentries : ∀ entry ∈ prepared.names,
      ∃ index, entry.1 = placeholder index ∧ (entry.2, index) ∈ names.zipIdx := by
    refine prepare_induction (p := fun prepared => ∀ entry ∈ prepared.names, ∃ index,
      entry.1 = placeholder index ∧ (entry.2, index) ∈ names.zipIdx) h nofun
      fun before index name hmem ih entry hentry => ?_
    unfold Prepared.substitute at hentry
    dsimp only at hentry
    split at hentry
    next =>
      rcases List.mem_append.mp hentry with hentry | hentry
      · exact ih entry hentry
      · rw [List.mem_singleton.mp hentry]
        exact ⟨index, rfl, hmem⟩
    next => exact ih entry hentry
  obtain ⟨entry, hfind, rfl⟩ := Option.map_eq_some_iff.mp hname
  obtain ⟨index, hindex, hmem⟩ := hentries entry (List.mem_of_find?_eq_some hfind)
  have htoken : (entry.1 == token) = true := by
    simpa using List.find?_some hfind
  exact ⟨index, (eq_of_beq htoken).symm.trans hindex, hmem⟩

theorem exists_placeholder_of_name? {source : Text} {names : List Text} {prepared : Prepared}
    (h : prepare source names = .ok prepared) (hname : prepared.name? token = some bound) :
    ∃ index, token = placeholder index := by
  obtain ⟨index, htoken, -⟩ := exists_mem_of_name? h hname
  exact ⟨index, htoken⟩

/-- The text reads as two names with an operator between them. -/
def IsPair (names : List Text) (source a : Text) (op : Operator) (b : Text) : Prop :=
  ∃ prepared left right, prepare source names = .ok prepared ∧
    prepared.text = left ++ (op.sign ++ right) ∧
    prepared.name? left = some a ∧ prepared.name? right = some b

end Placeholders

variable {K V S : Type} [Coordinate K] [Number V] [Cell S V]

theorem Scope.merge_pair (scope : Scope K V) {first second : Link K V S} {op : Operator}
    (hfirst : first.action = some op) (hsecond : second.action = none) :
    scope.merge first [second] = scope.mergeLinks first op second := by
  have hrow : IsRow ([first, second].map Link.placed) := by
    refine ⟨?_, hsecond⟩
    show first.action ≠ none
    rw [hfirst]
    exact Option.some_ne_none _
  have hjoins : joins (some op) ([second].map Link.placed) = [(op, second)] := by
    show (op, second) :: joins second.action [] = _
    rw [hsecond]
    rfl
  have htree : bySplitting first [(op, second)] = .merge (.operand first) op (.operand second) := by
    have hsplit : bySplitting first ([] ++ (op, second) :: []) =
        .merge (bySplitting first []) op (bySplitting second []) :=
      bySplitting_append (by simp) (by simp)
    rw [bySplitting_nil, bySplitting_nil] at hsplit
    exact hsplit
  rw [merge_eq_reduce scope hrow, hfirst, hjoins, htree]
  simp only [Merging.reduce, pure_bind]

/-- Two linked operands are merged. -/
theorem Scope.link_bind_merge_pair (scope : Scope K V) (depth : Nat) (op : Operator)
    (left : Part K V S) (resolving : Run K V S (Part K V S)) {α : Type}
    (next : Link K V S → Run K V S α) :
    (do
      let first ← link depth (some op) left
      let right ← resolving
      let second ← link depth none right
      let result ← scope.merge first [second]
      next result) = (do
      let first ← link depth (some op) left
      let right ← resolving
      let second ← link depth none right
      let result ← scope.mergeLinks first op second
      next result) := by
  unfold link
  simp only [bind_assoc, pure_bind]
  refine bind_congr fun id => bind_congr fun right => bind_congr fun id' => ?_
  rw [merge_pair scope rfl rfl]

/-- Without tracing, a merge succeeds when the operands are combined. -/
theorem Scope.exists_mergeLinks_eq_ok (scope : Scope K V) (htraces : scope.settings.traces = false)
    {left right : Link K V S} {op : Operator} {value : Operand K V S}
    (h : (scope.combine left.toPart op right.toPart).outcome.1 = .ok value)
    (session : Session K V S) :
    ∃ link after, Run.from? session (scope.mergeLinks left op right) = (.ok link, after) := by
  have hemit (id text : Text) (session : Session K V S) :
      Run.from? session (emit scope.settings id text value) = (.ok (), session) := by
    unfold emit
    rw [htraces]
    rfl
  unfold mergeLinks
  rw [Run.from?_bind, Run.from?_nextId]
  dsimp only
  rw [Run.from?_bind, Run.from?_traced, h]
  dsimp only
  rw [Run.from?_bind, hemit]
  exact ⟨_, _, rfl⟩

variable [Conversion K V]

/-- Two tokens with an operator between them are resolved one after the other. -/
theorem Scope.from?_evaluateLinks_pair (scope : Scope K V) (depth : Nat) {left right : Text}
    {session between behind : Session K V S} (op : Operator) {a b : Part K V S}
    (ha : Run.from? session (scope.resolveToken left) = (.ok a, between))
    (hb : Run.from? { between with counter := between.counter + 1 } (scope.resolveToken right) =
      (.ok b, behind)) :
    Run.from? session (scope.evaluateLinks depth (.join (.token left) op (.last (.token right)))) =
      (.ok (⟨a, some op, expressionId (between.counter + 1), depth⟩,
          [⟨b, none, expressionId (behind.counter + 1), depth⟩]),
        { behind with counter := behind.counter + 1 }) := by
  have hfirst : Run.from? between (link depth (some op) a) =
      (.ok ⟨a, some op, expressionId (between.counter + 1), depth⟩,
        { between with counter := between.counter + 1 }) := link_eq_ok.mpr ⟨rfl, rfl⟩
  have hsecond : Run.from? behind (link depth none b) =
      (.ok ⟨b, none, expressionId (behind.counter + 1), depth⟩,
        { behind with counter := behind.counter + 1 }) := link_eq_ok.mpr ⟨rfl, rfl⟩
  simp only [evaluateLinks, evaluateTerm, bind_assoc, pure_bind]
  rw [Run.from?_bind, ha]
  dsimp only
  rw [Run.from?_bind, hfirst]
  dsimp only
  rw [Run.from?_bind, hb]
  dsimp only
  rw [Run.from?_bind, hsecond]
  rfl

/-- The value of two tokens with an operator between them is what their values are combined to. Only
a traced result may fail to be recorded. -/
theorem parse_pair_eq_ok {settings : Settings K V} {source left right : Text}
    {session between behind : Session K V S} {prepared : Prepared} {op : Operator}
    {a b : Part K V S} (hprepare : prepare source session.table.namesLongestFirst = .ok prepared)
    (htext : prepared.text = left ++ (op.sign ++ right)) (hleft : IsToken left)
    (hsign : ¬ AwaitsSign left) (hright : IsToken right) (hdepth : 0 ≤ settings.maxDepth)
    (ha : Run.from? session ((⟨settings, prepared⟩ : Scope K V).resolveToken left) =
      (.ok a, between))
    (hb : Run.from? { between with counter := between.counter + 1 }
      ((⟨settings, prepared⟩ : Scope K V).resolveToken right) = (.ok b, behind))
    {value : Operand K V S}
    (hvalue : ((⟨settings, prepared⟩ : Scope K V).combine a op b).outcome.1 = .ok value) :
    (settings.traces = false → ∃ provenance after,
      Run.from? session (parse settings source) = (.ok (value, provenance), after)) ∧
    ∀ result provenance after,
      Run.from? session (parse settings source) = (.ok (result, provenance), after) →
        result = value := by
  have hspells : (Chain.join (.token left) op (.last (.token right))).Spells prepared.text := by
    rw [htext]
    exact .join (.token hleft) (fun hawaits => absurd hawaits hsign) (.last (.token hright))
  let scope : Scope K V := ⟨settings, prepared⟩
  let first : Link K V S := ⟨a, some op, expressionId (between.counter + 1), 0⟩
  let second : Link K V S := ⟨b, none, expressionId (behind.counter + 1), 0⟩
  let linked : Session K V S := { behind with counter := behind.counter + 1 }
  have hcombined : (scope.combine first.toPart op second.toPart).outcome.1 = .ok value := hvalue
  have hparse : Run.from? session (parse settings source) = Run.from? linked (do
      let result ← scope.mergeLinks first op second
      return (result.value,
        if result.value.isConstant then .constant else result.provenance)) := by
    rw [from?_parse_of_spells hprepare hspells hdepth]
    dsimp only
    rw [Run.from?_bind, scope.from?_evaluateLinks_pair 0 op ha hb]
    dsimp only
    rw [Scope.merge_pair _ rfl rfl]
  rw [hparse]
  refine ⟨fun htraces => ?_, fun result provenance after hresult => ?_⟩
  · obtain ⟨link, merged, hlink⟩ := scope.exists_mergeLinks_eq_ok htraces hcombined linked
    obtain ⟨hmerged, -⟩ := Scope.mergeLinks_eq_ok hlink
    rw [Run.from?_bind, hlink, Except.ok.inj (hvalue.symm.trans hmerged)]
    exact ⟨_, _, rfl⟩
  · obtain ⟨link, merged, hlink, hreturn⟩ := Run.from?_bind_eq_ok.mp hresult
    obtain ⟨hmerged, -⟩ := Scope.mergeLinks_eq_ok hlink
    obtain ⟨heq, -⟩ := Run.from?_pure_eq_ok.mp hreturn
    exact (congrArg Prod.fst heq).symm.trans (Except.ok.inj (hmerged.symm.trans hvalue))

end MapAlgebra.Expression
