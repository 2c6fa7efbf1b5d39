import MapAlgebra.Proofs.Grammar
import MapAlgebra.Proofs.Meaning

/-!
# Parsing

An expression has a value exactly when its prepared text has a derivation that is not nested too
deep and means something. The value is what the derivation means.
-/

namespace MapAlgebra.Expression

variable {K V S : Type} [Coordinate K] [Number V] [Cell S V] [Conversion K V]
variable {scope : Scope K V}

omit [Coordinate K] [Number V] [Cell S V] [Conversion K V] in
theorem checkDepth_eq_ok {session after : Session K V S} {depth : Nat} {u : Unit} :
    Run.from? session (scope.checkDepth depth) = (.ok u, after) ↔
      (depth : Int) ≤ scope.settings.maxDepth ∧ after = session := by
  unfold Scope.checkDepth
  split
  next h =>
    constructor
    · intro h
      cases h
    · rintro ⟨hle, -⟩
      omega
  next h =>
    rw [Run.from?_pure, Prod.mk.injEq]
    constructor
    · rintro ⟨-, rfl⟩
      exact ⟨by omega, rfl⟩
    · rintro ⟨-, rfl⟩
      exact ⟨rfl, rfl⟩

/-- A call that gives a value computes it, takes a number and records the result. -/
theorem exists_emit_of_call_eq_ok {session after : Session K V S} {function : Function}
    {arguments : List (Part K V S)} {part : Part K V S}
    (h : Run.from? session (scope.call function arguments) = (.ok part, after)) :
    ∃ value computed text,
      part = ⟨value, function.provenance, expressionId (computed.counter + 1)⟩ ∧
      Run.from? session (Run.traced
        (function.compute scope.settings.extent scope.prepared arguments)) =
          (.ok value, computed) ∧
      Run.from? { computed with counter := computed.counter + 1 }
        (emit scope.settings (expressionId (computed.counter + 1)) text value) =
          (.ok (), after) := by
  unfold Scope.call at h
  obtain ⟨value, computed, hvalue, hnumbering⟩ := Run.from?_bind_eq_ok.mp h
  obtain ⟨id, numbered, hid, hemitting⟩ := Run.from?_bind_eq_ok.mp hnumbering
  obtain ⟨_, emitted, hemit, hreturn⟩ := Run.from?_bind_eq_ok.mp hemitting
  obtain ⟨rfl, rfl⟩ := Run.from?_nextId_eq_ok.mp hid
  obtain ⟨rfl, rfl⟩ := Run.from?_pure_eq_ok.mp hreturn
  exact ⟨value, computed, _, rfl, hvalue, hemit⟩

/-- A call that gives a value has a number of arguments that its function admits. -/
theorem admits_of_call_eq_ok {session after : Session K V S} {function : Function}
    {parts : List (Part K V S)} {part : Part K V S}
    (h : Run.from? session (scope.call function parts) = (.ok part, after)) :
    function.admits parts.length := by
  obtain ⟨value, computed, text, -, hvalue, -⟩ := exists_emit_of_call_eq_ok h
  obtain ⟨hfault, -⟩ := Run.from?_traced_eq_ok.mp hvalue
  by_contra hcount
  unfold Function.compute at hfault
  rw [if_pos (by simpa using hcount)] at hfault
  cases hfault

theorem Function.not_admits_zero (function : Function) : ¬ function.admits 0 := by
  cases function <;> decide

-- By induction on what was read. How deep it is nested is known from the checks that were passed,
-- the first of which led to the depth that it is evaluated at.
mutual

/-- Operands that are evaluated have a meaning, nothing among them is missing, and they are nested
no deeper than the settings allow. -/
theorem operandsMean_of_eq_ok (scope : Scope K V) : ∀ (chain : Chain) {depth : Nat}
    {session after : Session K V S} {links : Link K V S × List (Link K V S)},
    Run.from? session (scope.evaluateLinks depth chain) = (.ok links, after) →
      OperandsMean scope depth session chain links after ∧ chain.Complete ∧
        ((depth : Int) ≤ scope.settings.maxDepth →
          (depth + chain.nesting : Int) ≤ scope.settings.maxDepth)
  | .last term, depth, session, after, links, h => by
      rw [Scope.evaluateLinks] at h
      obtain ⟨part, between, hpart, hbehind⟩ := Run.from?_bind_eq_ok.mp h
      obtain ⟨first, linked, hlink, hreturn⟩ := Run.from?_bind_eq_ok.mp hbehind
      obtain ⟨rfl, rfl⟩ := Run.from?_pure_eq_ok.mp hreturn
      obtain ⟨hmeans, hcomplete, hdepth⟩ := termMeans_of_eq_ok scope term hpart
      exact ⟨.last hmeans hlink, hcomplete, hdepth⟩
  | .join term op rest, depth, session, after, links, h => by
      rw [Scope.evaluateLinks] at h
      obtain ⟨part, between, hpart, hbehind⟩ := Run.from?_bind_eq_ok.mp h
      obtain ⟨first, linked, hlink, hmore⟩ := Run.from?_bind_eq_ok.mp hbehind
      obtain ⟨⟨second, more⟩, last, hrest, hreturn⟩ := Run.from?_bind_eq_ok.mp hmore
      obtain ⟨rfl, rfl⟩ := Run.from?_pure_eq_ok.mp hreturn
      obtain ⟨hmeans, hcomplete, hdepth⟩ := termMeans_of_eq_ok scope term hpart
      obtain ⟨hmeans', hcomplete', hdepth'⟩ := operandsMean_of_eq_ok scope rest hrest
      refine ⟨.join hmeans hlink hmeans', ⟨hcomplete, hcomplete'⟩, fun hle => ?_⟩
      -- the operands of a chain are all at the depth of the chain
      have hterm := hdepth hle
      have hrest := hdepth' hle
      rw [Chain.nesting]
      omega
  | .broken term wanted left, depth, session, after, links, h => by
      rw [Scope.evaluateLinks] at h
      obtain ⟨part, between, hpart, hbreak⟩ := Run.from?_bind_eq_ok.mp h
      cases hbreak

theorem termMeans_of_eq_ok (scope : Scope K V) : ∀ (term : Term) {depth : Nat}
    {session after : Session K V S} {part : Part K V S},
    Run.from? session (scope.evaluateTerm depth term) = (.ok part, after) →
      TermMeans scope depth session term part after ∧ term.Complete ∧
        ((depth : Int) ≤ scope.settings.maxDepth →
          (depth + term.nesting : Int) ≤ scope.settings.maxDepth)
  | .token text, depth, session, after, part, h => by
      rw [Scope.evaluateTerm] at h
      refine ⟨.token (resolveToken_eq_ok.mp h), trivial, fun hle => ?_⟩
      rw [Term.nesting]
      omega
  | .missing left, depth, session, after, part, h => by
      rw [Scope.evaluateTerm] at h
      cases h
  | .group negated body, depth, session, after, part, h => by
      rw [Scope.evaluateTerm] at h
      obtain ⟨_, checked, hcheck, hbody⟩ := Run.from?_bind_eq_ok.mp h
      obtain ⟨⟨first, rest⟩, between, hlinks, hmerging⟩ := Run.from?_bind_eq_ok.mp hbody
      obtain ⟨merged, last, hmerge, hsigning⟩ := Run.from?_bind_eq_ok.mp hmerging
      obtain ⟨hle, rfl⟩ := checkDepth_eq_ok.mp hcheck
      obtain ⟨hsigned, rfl⟩ := signed_eq_ok.mp hsigning
      obtain ⟨hmeans, hcomplete, hdepth⟩ := operandsMean_of_eq_ok scope body hlinks
      refine ⟨.group (.merged hmeans hmerge) hsigned, hcomplete, fun _ => ?_⟩
      have hbody := hdepth hle
      rw [Term.nesting]
      omega
  | .call negated name arguments, depth, session, after, part, h => by
      rw [Scope.evaluateTerm] at h
      cases hname : Function.ofName? name with
      | none =>
          rw [hname] at h
          cases h
      | some function =>
          rw [hname] at h
          obtain ⟨parts, between, harguments, hcalling⟩ := Run.from?_bind_eq_ok.mp h
          obtain ⟨called, last, hcall, hsigning⟩ := Run.from?_bind_eq_ok.mp hcalling
          obtain ⟨hsigned, rfl⟩ := signed_eq_ok.mp hsigning
          obtain ⟨hmeans, hmore⟩ := argumentsMean_of_eq_ok scope arguments harguments
          have hcount := admits_of_call_eq_ok hcall
          -- no function admits an empty list, so at least one argument was checked for its depth
          have hne : parts ≠ [] := by
            rintro rfl
            exact function.not_admits_zero hcount
          obtain ⟨hcomplete, hdepth⟩ := hmore hne
          refine ⟨.call hname hmeans hcount hcall hsigned, hcomplete, fun _ => ?_⟩
          rw [Term.nesting]
          omega

/-- Arguments are checked for their depth one by one, so that it is known when there is one. -/
theorem argumentsMean_of_eq_ok (scope : Scope K V) : ∀ (arguments : Arguments) {depth : Nat}
    {session after : Session K V S} {parts : List (Part K V S)},
    Run.from? session (scope.evaluateArguments depth arguments) = (.ok parts, after) →
      ArgumentsMean scope depth session arguments parts after ∧
        (parts ≠ [] → arguments.Complete ∧
          (depth + arguments.nesting : Int) ≤ scope.settings.maxDepth)
  | .none, depth, session, after, parts, h => by
      rw [Scope.evaluateArguments] at h
      obtain ⟨rfl, rfl⟩ := Run.from?_pure_eq_ok.mp h
      exact ⟨.none, fun hne => absurd rfl hne⟩
  | .more first rest, depth, session, after, parts, h => by
      rw [Scope.evaluateArguments] at h
      obtain ⟨_, checked, hcheck, hfirst⟩ := Run.from?_bind_eq_ok.mp h
      obtain ⟨⟨link, links⟩, between, hlinks, hmerging⟩ := Run.from?_bind_eq_ok.mp hfirst
      obtain ⟨merged, last, hmerge, hrest⟩ := Run.from?_bind_eq_ok.mp hmerging
      obtain ⟨others, ended, hothers, hreturn⟩ := Run.from?_bind_eq_ok.mp hrest
      obtain ⟨rfl, rfl⟩ := Run.from?_pure_eq_ok.mp hreturn
      obtain ⟨hle, rfl⟩ := checkDepth_eq_ok.mp hcheck
      obtain ⟨hmeans, hcomplete, hdepth⟩ := operandsMean_of_eq_ok scope first hlinks
      obtain ⟨hmeans', hmore⟩ := argumentsMean_of_eq_ok scope rest hothers
      refine ⟨.more (.merged hmeans hmerge) hmeans', fun _ => ?_⟩
      have hfirst := hdepth hle
      cases rest with
      | none =>
          refine ⟨hcomplete, ?_⟩
          rw [Arguments.nesting, Arguments.nesting]
          omega
      | more second rest =>
          cases hmeans' with
          | more hsecond hothers =>
              obtain ⟨hcomplete', hdepth'⟩ := hmore (List.cons_ne_nil _ _)
              refine ⟨⟨hcomplete, hcomplete'⟩, ?_⟩
              rw [Arguments.nesting]
              omega

end

mutual

/-- Operands that mean something are evaluated to it, if they are nested as deep as the settings
allow. -/
theorem OperandsMean.eq_ok {scope : Scope K V} : ∀ {chain : Chain} {depth : Nat}
    {session after : Session K V S} {links : Link K V S × List (Link K V S)},
    OperandsMean scope depth session chain links after →
      (depth + chain.nesting : Int) ≤ scope.settings.maxDepth →
        Run.from? session (scope.evaluateLinks depth chain) = (.ok links, after)
  | .last term, depth, session, after, links, h, hdepth => by
      cases h with
      | last hterm hlink =>
          rw [Scope.evaluateLinks]
          refine Run.from?_bind_eq_ok.mpr ⟨_, _, hterm.eq_ok hdepth, ?_⟩
          exact Run.from?_bind_eq_ok.mpr ⟨_, _, hlink, Run.from?_pure _⟩
  | .join term op rest, depth, session, after, links, h, hdepth => by
      rw [Chain.nesting] at hdepth
      cases h with
      | join hterm hlink hrest =>
          rw [Scope.evaluateLinks]
          refine Run.from?_bind_eq_ok.mpr ⟨_, _, hterm.eq_ok (by omega), ?_⟩
          refine Run.from?_bind_eq_ok.mpr ⟨_, _, hlink, ?_⟩
          exact Run.from?_bind_eq_ok.mpr ⟨_, _, hrest.eq_ok (by omega), Run.from?_pure _⟩
  | .broken term wanted left, depth, session, after, links, h, hdepth => by
      cases h

theorem TermMeans.eq_ok {scope : Scope K V} : ∀ {term : Term} {depth : Nat}
    {session after : Session K V S} {part : Part K V S},
    TermMeans scope depth session term part after →
      (depth + term.nesting : Int) ≤ scope.settings.maxDepth →
        Run.from? session (scope.evaluateTerm depth term) = (.ok part, after)
  | .token text, depth, session, after, part, h, hdepth => by
      cases h with
      | token h =>
          rw [Scope.evaluateTerm]
          exact resolveToken_eq_ok.mpr h
  | .missing left, depth, session, after, part, h, hdepth => by
      cases h
  | .group negated body, depth, session, after, part, h, hdepth => by
      rw [Term.nesting] at hdepth
      cases h with
      | group hbody hsigned =>
          obtain ⟨hoperands, hmerge⟩ := hbody
          rw [Scope.evaluateTerm]
          refine Run.from?_bind_eq_ok.mpr ⟨(), _, checkDepth_eq_ok.mpr ⟨by omega, rfl⟩, ?_⟩
          refine Run.from?_bind_eq_ok.mpr ⟨_, _, hoperands.eq_ok (by omega), ?_⟩
          refine Run.from?_bind_eq_ok.mpr ⟨_, _, hmerge, ?_⟩
          exact signed_eq_ok.mpr ⟨hsigned, rfl⟩
  | .call negated name arguments, depth, session, after, part, h, hdepth => by
      rw [Term.nesting] at hdepth
      cases h with
      | call hname harguments hcount hcall hsigned =>
          rw [Scope.evaluateTerm, hname]
          refine Run.from?_bind_eq_ok.mpr ⟨_, _, harguments.eq_ok (by omega), ?_⟩
          refine Run.from?_bind_eq_ok.mpr ⟨_, _, hcall, ?_⟩
          exact signed_eq_ok.mpr ⟨hsigned, rfl⟩

theorem ArgumentsMean.eq_ok {scope : Scope K V} : ∀ {arguments : Arguments} {depth : Nat}
    {session after : Session K V S} {parts : List (Part K V S)},
    ArgumentsMean scope depth session arguments parts after →
      (depth + arguments.nesting : Int) ≤ scope.settings.maxDepth →
        Run.from? session (scope.evaluateArguments depth arguments) = (.ok parts, after)
  | .none, depth, session, after, parts, h, hdepth => by
      cases h
      rw [Scope.evaluateArguments]
      exact Run.from?_pure _
  | .more first rest, depth, session, after, parts, h, hdepth => by
      rw [Arguments.nesting] at hdepth
      cases h with
      | more hfirst hrest =>
          obtain ⟨hoperands, hmerge⟩ := hfirst
          rw [Scope.evaluateArguments]
          refine Run.from?_bind_eq_ok.mpr ⟨(), _, checkDepth_eq_ok.mpr ⟨by omega, rfl⟩, ?_⟩
          refine Run.from?_bind_eq_ok.mpr ⟨_, _, hoperands.eq_ok (by omega), ?_⟩
          refine Run.from?_bind_eq_ok.mpr ⟨_, _, hmerge, ?_⟩
          exact Run.from?_bind_eq_ok.mpr ⟨_, _, hrest.eq_ok (by omega), Run.from?_pure _⟩

end

/-- What a text is refused for before it is read: it is empty, or its parentheses are not paired. -/
inductive IsRefusal : ExpressionFault → Prop
  | empty : IsRefusal .empty
  | unexpectedClosing (position : Nat) (text : Text) : IsRefusal (.unexpectedClosing position text)
  | unclosed (count : Nat) (text : Text) : IsRefusal (.unclosed count text)

theorem isRefusal_of_depthBehind {whole text : Text} {depth position : Nat}
    {fault : ExpressionFault} (h : depthBehind whole depth position text = .error fault) :
    IsRefusal fault := by
  fun_induction depthBehind whole depth position text with
  | case1 => cases h
  | case2 depth position rest ih => exact ih h
  | case3 position rest =>
      cases h
      exact .unexpectedClosing position whole
  | case4 position rest depth ih => exact ih h
  | case5 depth position c rest hopen hclose ih => exact ih h

theorem isRefusal_of_prepare {source : Text} {names : List Text} {fault : ExpressionFault}
    (h : prepare source names = .error fault) : IsRefusal fault := by
  unfold prepare at h
  dsimp only at h
  split at h
  next =>
    cases h
    exact .empty
  next =>
    cases hparentheses : checkParentheses (Text.squeeze source) with
    | ok done =>
        rw [hparentheses] at h
        cases h
    | error other =>
        rw [hparentheses] at h
        cases h
        unfold checkParentheses at hparentheses
        split at hparentheses
        next fault hdepth =>
          cases hparentheses
          exact isRefusal_of_depthBehind hdepth
        next => cases hparentheses
        next count hdepth =>
          cases hparentheses
          exact .unclosed (count + 1) _

/-- An expression is what its prepared text is evaluated to. -/
theorem from?_parse_of_prepare {settings : Settings K V} {source : Text} {session : Session K V S}
    {prepared : Prepared} (h : prepare source session.table.namesLongestFirst = .ok prepared) :
    Run.from? session (parse settings source) =
      Run.from? session (evaluate settings prepared) := by
  unfold parse
  rw [Run.from?_bind, Run.from?_get]
  dsimp only
  rw [h]

/-- A text is evaluated along the chain that it spells. -/
theorem evaluate_of_spells (settings : Settings K V) {prepared : Prepared} {chain : Chain}
    (h : chain.Spells prepared.text) :
    (evaluate settings prepared : Run K V S (Operand K V S × Provenance)) = (do
      let scope : Scope K V := ⟨settings, prepared⟩
      scope.checkDepth 0
      let (first, rest) ← scope.evaluateLinks 0 chain
      let result ← scope.merge first rest
      return (result.value,
        if result.value.isConstant then .constant else result.provenance)) := by
  unfold evaluate
  rw [← h.eq_readChain]

theorem from?_parse_of_spells {settings : Settings K V} {source : Text} {session : Session K V S}
    {prepared : Prepared} {chain : Chain}
    (hprepare : prepare source session.table.namesLongestFirst = .ok prepared)
    (hspells : chain.Spells prepared.text) (hdepth : 0 ≤ settings.maxDepth) :
    Run.from? session (parse settings source) = Run.from? session (do
      let scope : Scope K V := ⟨settings, prepared⟩
      let (first, rest) ← scope.evaluateLinks 0 chain
      let result ← scope.merge first rest
      return (result.value,
        if result.value.isConstant then .constant else result.provenance)) := by
  have hcheck : Run.from? session ((⟨settings, prepared⟩ : Scope K V).checkDepth 0) =
      (.ok (), session) := checkDepth_eq_ok.mpr ⟨hdepth, rfl⟩
  rw [from?_parse_of_prepare hprepare, evaluate_of_spells settings hspells]
  dsimp only
  rw [Run.from?_bind, hcheck]

/-- A text that has a value as an expression has a derivation that means it. -/
theorem exists_means_of_parse_eq_ok {settings : Settings K V} {source : Text}
    {session after : Session K V S} {value : Operand K V S} {provenance : Provenance}
    (h : Run.from? session (parse settings source) = (.ok (value, provenance), after)) :
    ∃ prepared chain part,
      prepare source session.table.namesLongestFirst = .ok prepared ∧
      chain.Spells prepared.text ∧ (chain.nesting : Int) ≤ settings.maxDepth ∧
      ChainMeans ⟨settings, prepared⟩ 0 session chain part after ∧ value = part.value ∧
      provenance = if value.isConstant then .constant else part.provenance := by
  unfold parse at h
  obtain ⟨_, _, hget, hparse⟩ := Run.from?_bind_eq_ok.mp h
  obtain ⟨rfl, rfl⟩ := Run.from?_pure_eq_ok.mp hget
  cases hprepare : prepare source session.table.namesLongestFirst with
  | error fault =>
      rw [hprepare] at hparse
      cases hparse
  | ok prepared =>
      rw [hprepare] at hparse
      obtain ⟨_, checked, hcheck, hlinking⟩ := Run.from?_bind_eq_ok.mp hparse
      obtain ⟨⟨first, rest⟩, between, hlinks, hmerging⟩ := Run.from?_bind_eq_ok.mp hlinking
      obtain ⟨merged, last, hmerge, hreturn⟩ := Run.from?_bind_eq_ok.mp hmerging
      obtain ⟨heq, rfl⟩ := Run.from?_pure_eq_ok.mp hreturn
      obtain ⟨hle, rfl⟩ := checkDepth_eq_ok.mp hcheck
      obtain ⟨hmeans, hcomplete, hdepth⟩ := operandsMean_of_eq_ok _ _ hlinks
      have hnesting := hdepth hle
      obtain ⟨rfl, rfl⟩ := Prod.mk.inj heq
      exact ⟨prepared, _, merged.toPart, rfl, spells_of_complete hcomplete, by simpa using hnesting,
        .merged hmeans hmerge, rfl, rfl⟩

/-- A text with a derivation that means a value has that value as an expression. -/
theorem ChainMeans.parse_eq_ok {settings : Settings K V} {source : Text}
    {session after : Session K V S} {prepared : Prepared} {chain : Chain} {part : Part K V S}
    (h : ChainMeans ⟨settings, prepared⟩ 0 session chain part after)
    (hprepare : prepare source session.table.namesLongestFirst = .ok prepared)
    (hspells : chain.Spells prepared.text) (hnesting : (chain.nesting : Int) ≤ settings.maxDepth) :
    Run.from? session (parse settings source) =
      (.ok (part.value, if part.value.isConstant then .constant else part.provenance), after) := by
  obtain ⟨hoperands, hmerge⟩ := h
  rw [from?_parse_of_spells hprepare hspells (by omega)]
  refine Run.from?_bind_eq_ok.mpr ⟨_, _, hoperands.eq_ok (by simpa using hnesting), ?_⟩
  exact Run.from?_bind_eq_ok.mpr ⟨_, _, hmerge, rfl⟩

/-- A text has a value as an expression exactly when its prepared form is spelled by a derivation
that is nested as deep as the settings allow and means a value: its tokens are resolved, its
functions are known and admit the number of their arguments, and no call and no merge fails. The
value is the meaning of the derivation, and so is the session that is left. -/
theorem parse_eq_ok_iff (settings : Settings K V) (source : Text) (session after : Session K V S)
    (value : Operand K V S) (provenance : Provenance) :
    Run.from? session (parse settings source) = (.ok (value, provenance), after) ↔
      ∃ prepared chain part,
        prepare source session.table.namesLongestFirst = .ok prepared ∧
        chain.Spells prepared.text ∧ (chain.nesting : Int) ≤ settings.maxDepth ∧
        ChainMeans ⟨settings, prepared⟩ 0 session chain part after ∧ value = part.value ∧
        provenance = if value.isConstant then .constant else part.provenance := by
  constructor
  · exact exists_means_of_parse_eq_ok
  · rintro ⟨prepared, chain, part, hprepare, hspells, hnesting, hmeans, rfl, rfl⟩
    exact hmeans.parse_eq_ok hprepare hspells hnesting

end MapAlgebra.Expression
