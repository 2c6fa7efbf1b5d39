import MapAlgebra.Proofs.Alone
import MapAlgebra.Proofs.Depths

/-!
# Limits of the depth

A limit of the depth decides about nothing but the nesting of an expression. What means something
has its value under every limit that it is nested within, and is refused for its depth by every
other one, and what is refused for its depth is nested beyond the limit.
-/

namespace MapAlgebra

variable {K V S α β : Type}

/-- The settings with another limit of the depth. -/
def Settings.limited (settings : Settings K V) (limit : Int) : Settings K V :=
  { settings with maxDepth := limit }

namespace Expression

def Scope.limited (scope : Scope K V) (limit : Int) : Scope K V :=
  { scope with settings := scope.settings.limited limit }

/-- From a session a step is refused, as it goes deeper than the limit. -/
def Refused (limit : Int) (session : Session K V S) (step : Run K V S α) : Prop :=
  ∃ after, Run.from? session step = (.error (.expression (.tooDeep limit)), after)

namespace Refused

variable {limit : Int} {session between : Session K V S} {step : Run K V S α}

theorem bind (h : Refused limit session step) (next : α → Run K V S β) :
    Refused limit session (step >>= next) := by
  obtain ⟨after, hstep⟩ := h
  exact ⟨after, Run.from?_bind_eq_error.mpr (.inl hstep)⟩

theorem behind {a : α} {next : α → Run K V S β}
    (hstep : Run.from? session step = (.ok a, between)) (h : Refused limit between (next a)) :
    Refused limit session (step >>= next) := by
  obtain ⟨after, hnext⟩ := h
  exact ⟨after, Run.from?_bind_eq_error.mpr (.inr ⟨a, between, hstep, hnext⟩)⟩

/-- Behind a check of the depth a step is refused, if it is where the check passes. -/
theorem checked {scope : Scope K V} {depth : Nat} {next : Unit → Run K V S α}
    (h : (depth : Int) ≤ scope.settings.maxDepth →
      Refused scope.settings.maxDepth session (next ())) :
    Refused scope.settings.maxDepth session (scope.checkDepth depth >>= next) := by
  rcases Int.lt_or_le scope.settings.maxDepth depth with hdeep | hle
  · refine .bind ⟨session, ?_⟩ next
    unfold Scope.checkDepth
    rw [if_pos hdeep]
    rfl
  · refine .behind (a := ()) ?_ (h hle)
    unfold Scope.checkDepth
    rw [if_neg (Int.not_lt.mpr hle)]
    rfl

end Refused

variable [Coordinate K] [Number V] [Cell S V] [Conversion K V]
variable {scope : Scope K V}

section Rules

variable (scope : Scope K V) (limit : Int)

omit [Conversion K V] in
theorem Scope.resolveToken_limited (token : Text) :
    ((scope.limited limit).resolveToken token : Run K V S (Part K V S)) =
      scope.resolveToken token := rfl

omit [Conversion K V] in
theorem Scope.merge_limited (first : Link K V S) (rest : List (Link K V S)) :
    (scope.limited limit).merge first rest = scope.merge first rest := rfl

theorem Scope.call_limited (function : Function) (arguments : List (Part K V S)) :
    (scope.limited limit).call function arguments = scope.call function arguments := rfl

end Rules

omit [Conversion K V] in
theorem TokenMeans.limited (limit : Int) {token : Text} {session after : Session K V S}
    {part : Part K V S} (h : TokenMeans scope session token part after) :
    TokenMeans (scope.limited limit) session token part after := by
  rw [← resolveToken_eq_ok, scope.resolveToken_limited]
  exact resolveToken_eq_ok.mpr h

-- By induction on the derivation, no rule of which looks at the limit.
mutual

theorem OperandsMean.limited {scope : Scope K V} (limit : Int) : ∀ {chain : Chain} {depth : Nat}
    {session after : Session K V S} {links : Link K V S × List (Link K V S)},
    OperandsMean scope depth session chain links after →
      OperandsMean (scope.limited limit) depth session chain links after
  | .last term, depth, session, after, links, h => by
      cases h with
      | last hterm hlink => exact .last (hterm.limited limit) hlink
  | .join term op rest, depth, session, after, links, h => by
      cases h with
      | join hterm hlink hrest => exact .join (hterm.limited limit) hlink (hrest.limited limit)
  | .broken term wanted left, depth, session, after, links, h => by
      cases h

theorem TermMeans.limited {scope : Scope K V} (limit : Int) : ∀ {term : Term} {depth : Nat}
    {session after : Session K V S} {part : Part K V S},
    TermMeans scope depth session term part after →
      TermMeans (scope.limited limit) depth session term part after
  | .token text, depth, session, after, part, h => by
      cases h with
      | token h => exact .token (h.limited limit)
  | .missing left, depth, session, after, part, h => by
      cases h
  | .group negated body, depth, session, after, part, h => by
      cases h with
      | group hbody hsigned =>
          obtain ⟨hoperands, hmerge⟩ := hbody
          rw [← scope.merge_limited limit] at hmerge
          exact .group (.merged (hoperands.limited limit) hmerge) hsigned
  | .call negated name arguments, depth, session, after, part, h => by
      cases h with
      | call hname harguments hcount hcall hsigned =>
          rw [← scope.call_limited limit] at hcall
          exact .call hname (harguments.limited limit) hcount hcall hsigned

theorem ArgumentsMean.limited {scope : Scope K V} (limit : Int) : ∀ {arguments : Arguments}
    {depth : Nat} {session after : Session K V S} {parts : List (Part K V S)},
    ArgumentsMean scope depth session arguments parts after →
      ArgumentsMean (scope.limited limit) depth session arguments parts after
  | .none, depth, session, after, parts, h => by
      cases h
      exact .none
  | .more first rest, depth, session, after, parts, h => by
      cases h with
      | more hfirst hrest =>
          obtain ⟨hoperands, hmerge⟩ := hfirst
          rw [← scope.merge_limited limit] at hmerge
          exact .more (.merged (hoperands.limited limit) hmerge) (hrest.limited limit)

end

theorem ChainMeans.limited (limit : Int) {chain : Chain} {depth : Nat}
    {session after : Session K V S} {part : Part K V S}
    (h : ChainMeans scope depth session chain part after) :
    ChainMeans (scope.limited limit) depth session chain part after := by
  obtain ⟨hoperands, hmerge⟩ := h
  rw [← scope.merge_limited limit] at hmerge
  exact .merged (hoperands.limited limit) hmerge

-- By induction on what was read. The parts in front of the one that is refused mean something, and
-- so they are evaluated when they are not refused themselves.
mutual

theorem OperandsMean.refused {scope : Scope K V} : ∀ {chain : Chain} {depth : Nat}
    {session after : Session K V S} {links : Link K V S × List (Link K V S)},
    OperandsMean scope depth session chain links after →
      (depth : Int) ≤ scope.settings.maxDepth →
        scope.settings.maxDepth < (depth + chain.nesting : Int) →
          Refused scope.settings.maxDepth session (scope.evaluateLinks depth chain)
  | .last term, depth, session, after, links, h, hle, hdeep => by
      rw [Scope.evaluateLinks]
      cases h with
      | last hterm hlink => exact (hterm.refused hle hdeep).bind _
  | .join term op rest, depth, session, after, links, h, hle, hdeep => by
      rw [Chain.nesting] at hdeep
      rw [Scope.evaluateLinks]
      cases h with
      | join hterm hlink hrest =>
          rcases Int.lt_or_le scope.settings.maxDepth (depth + term.nesting) with hdeeper | hwithin
          · exact (hterm.refused hle hdeeper).bind _
          · refine .behind (hterm.eq_ok hwithin) (.behind hlink ?_)
            exact (hrest.refused hle (by omega)).bind _
  | .broken term wanted left, depth, session, after, links, h, hle, hdeep => by
      cases h

theorem TermMeans.refused {scope : Scope K V} : ∀ {term : Term} {depth : Nat}
    {session after : Session K V S} {part : Part K V S},
    TermMeans scope depth session term part after →
      (depth : Int) ≤ scope.settings.maxDepth →
        scope.settings.maxDepth < (depth + term.nesting : Int) →
          Refused scope.settings.maxDepth session (scope.evaluateTerm depth term)
  | .token text, depth, session, after, part, h, hle, hdeep => by
      rw [Term.nesting] at hdeep
      omega
  | .missing left, depth, session, after, part, h, hle, hdeep => by
      cases h
  | .group negated body, depth, session, after, part, h, hle, hdeep => by
      rw [Term.nesting] at hdeep
      rw [Scope.evaluateTerm]
      cases h with
      | group hbody hsigned =>
          obtain ⟨hoperands, hmerge⟩ := hbody
          exact .checked fun hhere => (hoperands.refused hhere (by omega)).bind _
  | .call negated name arguments, depth, session, after, part, h, hle, hdeep => by
      rw [Term.nesting] at hdeep
      rw [Scope.evaluateTerm]
      cases h with
      | call hname harguments hcount hcall hsigned =>
          rw [hname]
          -- an empty list of arguments is not refused, but no function admits it
          have hne : arguments ≠ .none := by
            rintro rfl
            cases harguments
            exact Function.not_admits_zero _ hcount
          exact (harguments.refused hne (by omega)).bind _

theorem ArgumentsMean.refused {scope : Scope K V} : ∀ {arguments : Arguments} {depth : Nat}
    {session after : Session K V S} {parts : List (Part K V S)},
    ArgumentsMean scope depth session arguments parts after → arguments ≠ .none →
      scope.settings.maxDepth < (depth + arguments.nesting : Int) →
        Refused scope.settings.maxDepth session (scope.evaluateArguments depth arguments)
  | .none, depth, session, after, parts, h, hne, hdeep => absurd rfl hne
  | .more first rest, depth, session, after, parts, h, hne, hdeep => by
      rw [Arguments.nesting] at hdeep
      rw [Scope.evaluateArguments]
      cases h with
      | more hfirst hrest =>
          obtain ⟨hoperands, hmerge⟩ := hfirst
          refine .checked fun hhere => ?_
          rcases Int.lt_or_le scope.settings.maxDepth (depth + first.nesting) with hdeeper | hwithin
          · exact (hoperands.refused hhere hdeeper).bind _
          refine .behind (hoperands.eq_ok hwithin) (.behind hmerge ?_)
          have hne : rest ≠ .none := by
            rintro rfl
            rw [Arguments.nesting] at hdeep
            omega
          exact (hrest.refused hne (by omega)).bind _

end

/-- What means something is refused if it is nested beyond the limit. -/
theorem ChainMeans.parse_refused {settings : Settings K V} {source : Text}
    {session after : Session K V S} {prepared : Prepared} {chain : Chain} {part : Part K V S}
    (h : ChainMeans ⟨settings, prepared⟩ 0 session chain part after)
    (hprepare : prepare source session.table.namesLongestFirst = .ok prepared)
    (hspells : chain.Spells prepared.text) (hdeep : settings.maxDepth < chain.nesting) :
    Refused settings.maxDepth session (parse settings source) := by
  obtain ⟨hoperands, hmerge⟩ := h
  have hevaluate : Refused settings.maxDepth session (evaluate settings prepared) := by
    rw [evaluate_of_spells settings hspells]
    let scope : Scope K V := ⟨settings, prepared⟩
    have hlinks (hle : ((0 : Nat) : Int) ≤ scope.settings.maxDepth) :
        Refused settings.maxDepth session (scope.evaluateLinks 0 chain) :=
      hoperands.refused hle (by simpa using hdeep)
    exact Refused.checked fun hle => (hlinks hle).bind _
  obtain ⟨stopped, hstopped⟩ := hevaluate
  exact ⟨stopped, (from?_parse_of_prepare hprepare).trans hstopped⟩

/-- A text that is not prepared is refused for what it lacks, not for its depth. -/
theorem isShallow_of_prepare {source : Text} {names : List Text} {fault : ExpressionFault}
    (h : prepare source names = .error fault) : (Fault.expression fault).IsShallow := by
  cases isRefusal_of_prepare h <;> trivial

/-- What is refused for its depth by an expression is nested beyond the limit. -/
theorem lt_height_of_parse_eq_error {settings : Settings K V} {source : Text}
    {session after : Session K V S} {bound : Int}
    (h : Run.from? session (parse settings source) =
      (.error (.expression (.tooDeep bound)), after)) :
    ∃ prepared, prepare source session.table.namesLongestFirst = .ok prepared ∧
      bound = settings.maxDepth ∧ settings.maxDepth < height prepared.text := by
  cases hprepare : prepare source session.table.namesLongestFirst with
  | error fault =>
      have hparse : Run.from? session (parse settings source) =
          (.error (.expression fault), session) := by
        unfold parse
        rw [Run.from?_bind, Run.from?_get]
        dsimp only
        rw [hprepare]
        rfl
      cases hparse.symm.trans h
      exact (isShallow_of_prepare hprepare).elim
  | ok prepared =>
      rw [from?_parse_of_prepare hprepare] at h
      obtain ⟨hbound, hlt⟩ := (leads_evaluate prepared).fails _ _ h
      exact ⟨prepared, rfl, hbound, Int.lt_of_lt_of_le hlt
        (readsNested_readChain [] prepared.text).le_height⟩

/-- An expression that has a value is nested within the limit of the depth. The nesting is how many
parentheses are open at most in the prepared text, which is as deep as what it spells: groups and
calls are a level each, and of the arguments of a call the deepest one counts. Under another limit
the expression has the same value if it is nested within that limit too, and is refused for its
depth if it is not. An expression that is refused for its depth is nested beyond the limit, which
the refusal tells. -/
theorem parse_within_limit (settings : Settings K V) (source : Text) (session : Session K V S) :
    (∀ found after, Run.from? session (parse settings source) = (.ok found, after) →
      ∃ (prepared : Prepared) (chain : Chain),
        prepare source session.table.namesLongestFirst = .ok prepared ∧
        height prepared.text ≤ settings.maxDepth ∧
        chain.Spells prepared.text ∧ height prepared.text = chain.nesting ∧
        ∀ limit,
          (height prepared.text ≤ limit →
            Run.from? session (parse (settings.limited limit) source) = (.ok found, after)) ∧
          (limit < height prepared.text →
            Refused limit session (parse (S := S) (settings.limited limit) source))) ∧
      ∀ bound after,
        Run.from? session (parse settings source) =
          (.error (.expression (.tooDeep bound)), after) →
        ∃ prepared, prepare source session.table.namesLongestFirst = .ok prepared ∧
          bound = settings.maxDepth ∧ settings.maxDepth < height prepared.text := by
  refine ⟨fun found after hfound => ?_, fun bound after => lt_height_of_parse_eq_error⟩
  obtain ⟨value, provenance⟩ := found
  obtain ⟨prepared, chain, part, hprepare, hspells, hle, hmeans, rfl, rfl⟩ :=
    exists_means_of_parse_eq_ok hfound
  have hheight := hspells.isNested.height_eq
  rw [← hheight] at hle
  refine ⟨prepared, chain, hprepare, hle, hspells, hheight, fun limit => ⟨fun hlimit => ?_,
    fun hlimit => ?_⟩⟩
  · rw [hheight] at hlimit
    exact (hmeans.limited limit).parse_eq_ok hprepare hspells hlimit
  · rw [hheight] at hlimit
    exact (hmeans.limited limit).parse_refused hprepare hspells hlimit

section Groups

/-- A call of two groups. -/
def twoGroups : Text := "max((1),(2))".toList

def groupArguments : Arguments :=
  .more (.last (.group false (.last (.token ['1']))))
    (.more (.last (.group false (.last (.token ['2'])))) .none)

/-- No variables and no files. -/
def bare : Session Float Float Float32 where
  files := { current := [], entries := [] }

theorem isToken_single {c : Char} (h : isPlain c) : IsToken [c] :=
  ⟨List.cons_ne_nil _ _, false, [c], .plain (by simpa using h), rfl⟩

theorem spells_twoGroups :
    (Chain.last (.call false "max".toList groupArguments)).Spells twoGroups := by
  have hgroup (c : Char) (h : isPlain c) :
      (Chain.last (.group false (.last (.token [c])))).Spells ['(', c, ')'] :=
    .last (.group (.last (.token (isToken_single h))))
  have hname : IsBody "max".toList := .plain (List.all_eq_true.mp (by decide))
  have harguments : groupArguments.Spells "(1),(2)".toList :=
    .more (hgroup '1' (by decide)) (.last (hgroup '2' (by decide)))
  have hcall : (Term.call false "max".toList groupArguments).Spells twoGroups :=
    .call (by decide) hname harguments
  exact .last hcall

theorem prepare_twoGroups :
    prepare twoGroups bare.table.namesLongestFirst = .ok ⟨twoGroups, twoGroups, []⟩ := by
  decide +kernel

theorem exists_twoGroups_eq_ok : ∃ found after,
    Run.from? bare (parse (Settings.limited {} 2) twoGroups) = (.ok found, after) := by
  have hsucceeds : Run.succeeds bare (evaluate (Settings.limited {} 2) ⟨twoGroups, twoGroups, []⟩)
      fun _ _ => true := by
    rw [evaluate_last _ spells_twoGroups]
    simp only [Scope.evaluateTerm, Scope.evaluateArguments, Scope.evaluateLinks, groupArguments,
      bind_assoc, pure_bind, Scope.link_bind_merge]
    decide +kernel
  obtain ⟨found, after, hrun, -⟩ := Run.exists_of_succeeds hsucceeds
  exact ⟨found, after, (from?_parse_of_prepare prepare_twoGroups).trans hrun⟩

/-- Two levels are within limits of two and three and beyond a limit of one. -/
theorem parse_within_limit_twoGroups : ∃ found after stopped,
    Run.from? bare (parse (Settings.limited {} 2) twoGroups) = (.ok found, after) ∧
      Run.from? bare (parse (Settings.limited {} 3) twoGroups) = (.ok found, after) ∧
      Run.from? bare (parse (Settings.limited {} 1) twoGroups) =
        (.error (.expression (.tooDeep 1)), stopped) ∧
      (∃ (prepared : Prepared) (chain : Chain),
        prepare twoGroups bare.table.namesLongestFirst = .ok prepared ∧ height prepared.text ≤ 2 ∧
        chain.Spells prepared.text ∧ height prepared.text = chain.nesting) ∧
      ∃ prepared, prepare twoGroups bare.table.namesLongestFirst = .ok prepared ∧
        1 < height prepared.text := by
  obtain ⟨found, after, hrun⟩ := exists_twoGroups_eq_ok
  obtain ⟨prepared, chain, hprepare, hle, hspells, hheight, hlimits⟩ :=
    (parse_within_limit (Settings.limited {} 2) twoGroups bare).1 found after hrun
  have hheld : Run.from? bare (parse (Settings.limited {} 3) twoGroups) = (.ok found, after) :=
    (hlimits 3).1 (Int.le_trans hle (by decide))
  have hdeep : 1 < height prepared.text := by
    cases prepare_twoGroups.symm.trans hprepare
    decide
  obtain ⟨stopped, hstopped⟩ := (hlimits 1).2 hdeep
  obtain ⟨refused, hrefused, -, hlt⟩ :=
    (parse_within_limit (Settings.limited {} 1) twoGroups bare).2 1 stopped hstopped
  exact ⟨found, after, stopped, hrun, hheld, hstopped,
    ⟨prepared, chain, hprepare, hle, hspells, hheight⟩, refused, hrefused, hlt⟩

end Groups

end Expression

end MapAlgebra
