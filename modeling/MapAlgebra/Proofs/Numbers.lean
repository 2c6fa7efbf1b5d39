import MapAlgebra.Proofs.Limits
import MapAlgebra.Proofs.Pairs

/-!
# Numbers of results

Every operand of a chain, every merge and every call takes a number: the operands when they have
been evaluated, the merges when their chain has been, and a call when its arguments have been. What
is counted in a derivation is therefore what the count of a session grows by, and expressions that
are read in turn take their numbers one after the other.
-/

namespace MapAlgebra

theorem expressionId_injective {i j : Nat} (h : expressionId i = expressionId j) : i = j := by
  have hdigits : Nat.toDigits 10 i = Nat.toDigits 10 j := List.append_cancel_left h
  rw [← Nat.ofDigitChars_ten_toDigits (n := i), hdigits, Nat.ofDigitChars_ten_toDigits]

namespace Expression

/-- What takes a number. -/
inductive Numbered
  | operand
  | operator
  | call
  deriving DecidableEq

/-- A number that was taken, as the name made of it. -/
structure Issue where
  what : Numbered
  id : Text

/-- Operators and calls have results, which name files of their own; an operand is one already. -/
def Issue.isResult (issue : Issue) : Bool :=
  issue.what != .operand

mutual

/-- How many operands, operators or calls a chain has at all its levels. -/
def Chain.count (what : Numbered) : Chain → Nat
  | .last term => term.count what + if what = .operand then 1 else 0
  | .join term _ rest =>
      (term.count what + if what = .operand then 1 else 0) +
        (rest.count what + if what = .operator then 1 else 0)
  | .broken term _ _ => term.count what + if what = .operand then 1 else 0

def Term.count (what : Numbered) : Term → Nat
  | .token _ => 0
  | .missing _ => 0
  | .group _ body => body.count what
  | .call _ _ arguments => arguments.count what + if what = .call then 1 else 0

def Arguments.count (what : Numbered) : Arguments → Nat
  | .none => 0
  | .more first rest => first.count what + rest.count what

end

/-- Issues with the names of the numbers from one count to another, in order. -/
structure InOrder (start stop : Nat) (issues : List Issue) : Prop where
  stop_eq : stop = start + issues.length
  ids : issues.map Issue.id = (List.range' (start + 1) issues.length).map expressionId

namespace InOrder

variable {start between stop : Nat} {issues issues' : List Issue}

theorem nil (h : stop = start) : InOrder start stop [] :=
  ⟨h, rfl⟩

theorem single {what : Numbered} {id : Text} (hstop : stop = start + 1)
    (hid : id = expressionId (start + 1)) : InOrder start stop [⟨what, id⟩] :=
  ⟨hstop, by rw [hid]; rfl⟩

theorem append (h : InOrder start between issues) (h' : InOrder between stop issues') :
    InOrder start stop (issues ++ issues') where
  stop_eq := by
    rw [h'.stop_eq, h.stop_eq, List.length_append, Nat.add_assoc]
  ids := by
    have hbetween : start + 1 + issues.length = between + 1 := by
      rw [h.stop_eq]
      omega
    rw [List.map_append, h.ids, h'.ids, List.length_append, ← List.range'_append_1, hbetween,
      List.map_append]

theorem nodup (h : InOrder start stop issues) : (issues.map Issue.id).Nodup := by
  rw [h.ids]
  exact List.Nodup.map (fun _ _ => expressionId_injective) List.nodup_range'

end InOrder

/-- Files in one directory that are named by different numbers are different. -/
theorem nodup_tracePath {K V : Type} [Coordinate K] (settings : Settings K V) (files : FileTree)
    {ids : List Text} (h : ids.Nodup) : (ids.map (tracePath settings files)).Nodup := by
  refine h.map fun id other hpath => ?_
  unfold tracePath Path.join at hpath
  simpa [Path.isAbsolute] using hpath

variable {K V S : Type} [Coordinate K] [Number V] [Cell S V] [Conversion K V]

/-- The merges of a tree take their numbers when both of their sides have been merged. -/
inductive MergesIssue (scope : Scope K V) :
    Session K V S → Merging (Link K V S) → Link K V S → Session K V S → List Issue → Prop
  | operand {session : Session K V S} {link : Link K V S} :
      MergesIssue scope session (.operand link) link session []
  | merge {session between merging after : Session K V S} {left right : Merging (Link K V S)}
      {op : Operator} {a b merged : Link K V S} {issues issues' : List Issue}
      (hleft : MergesIssue scope session left a between issues)
      (hright : MergesIssue scope between right b merging issues')
      (hmerge : Run.from? merging (scope.mergeLinks a op b) = (.ok merged, after)) :
      MergesIssue scope session (.merge left op right) merged after
        (issues ++ issues' ++ [⟨.operator, merged.id⟩])

mutual

/-- The names that operands take, with those taken while they were evaluated. -/
inductive OperandsIssue (scope : Scope K V) :
    Nat → Session K V S → Chain → Link K V S × List (Link K V S) → Session K V S →
      List Issue → Prop
  | last {depth : Nat} {session between after : Session K V S} {term : Term} {part : Part K V S}
      {first : Link K V S} {issues : List Issue}
      (hterm : TermIssues scope depth session term part between issues)
      (hlink : Run.from? between (Scope.link depth none part) = (.ok first, after)) :
      OperandsIssue scope depth session (.last term) (first, []) after
        (issues ++ [⟨.operand, first.id⟩])
  | join {depth : Nat} {session between behind after : Session K V S} {term : Term} {op : Operator}
      {rest : Chain} {part : Part K V S} {first second : Link K V S} {more : List (Link K V S)}
      {issues issues' : List Issue}
      (hterm : TermIssues scope depth session term part between issues)
      (hlink : Run.from? between (Scope.link depth (some op) part) = (.ok first, behind))
      (hrest : OperandsIssue scope depth behind rest (second, more) after issues') :
      OperandsIssue scope depth session (.join term op rest) (first, second :: more) after
        (issues ++ [⟨.operand, first.id⟩] ++ issues')

/-- The names that a chain takes: those of its operands and then those of its merges. -/
inductive ChainIssues (scope : Scope K V) :
    Nat → Session K V S → Chain → Part K V S → Session K V S → List Issue → Prop
  | merged {depth : Nat} {session between after : Session K V S} {chain : Chain}
      {first merged : Link K V S} {rest : List (Link K V S)} {issues issues' : List Issue}
      (hoperands : OperandsIssue scope depth session chain (first, rest) between issues)
      (hmerge : MergesIssue scope between
        (bySplitting first (joins first.action (rest.map Link.placed))) merged after issues') :
      ChainIssues scope depth session chain merged.toPart after (issues ++ issues')

/-- The names that a term takes: a call takes its own behind those of its arguments. -/
inductive TermIssues (scope : Scope K V) :
    Nat → Session K V S → Term → Part K V S → Session K V S → List Issue → Prop
  | token {depth : Nat} {session after : Session K V S} {token : Text} {part : Part K V S}
      (h : TokenMeans scope session token part after) :
      TermIssues scope depth session (.token token) part after []
  | group {depth : Nat} {session after : Session K V S} {negated : Bool} {body : Chain}
      {part result : Part K V S} {issues : List Issue}
      (hbody : ChainIssues scope (depth + 1) session body part after issues)
      (hsigned : Signed negated part result) :
      TermIssues scope depth session (.group negated body) result after issues
  | call {depth : Nat} {session between after : Session K V S} {negated : Bool} {name : Text}
      {arguments : Arguments} {function : Function} {parts : List (Part K V S)}
      {part result : Part K V S} {issues : List Issue}
      (hname : Function.ofName? name = some function)
      (harguments : ArgumentsIssue scope (depth + 1) session arguments parts between issues)
      (hcall : Run.from? between (scope.call function parts) = (.ok part, after))
      (hsigned : Signed negated part result) :
      TermIssues scope depth session (.call negated name arguments) result after
        (issues ++ [⟨.call, part.token⟩])

/-- The names that arguments take one by one. -/
inductive ArgumentsIssue (scope : Scope K V) :
    Nat → Session K V S → Arguments → List (Part K V S) → Session K V S → List Issue → Prop
  | none {depth : Nat} {session : Session K V S} :
      ArgumentsIssue scope depth session .none [] session []
  | more {depth : Nat} {session between after : Session K V S} {first : Chain} {rest : Arguments}
      {part : Part K V S} {parts : List (Part K V S)} {issues issues' : List Issue}
      (hfirst : ChainIssues scope depth session first part between issues)
      (hrest : ArgumentsIssue scope depth between rest parts after issues') :
      ArgumentsIssue scope depth session (.more first rest) (part :: parts) after
        (issues ++ issues')

end

section Existence

variable {scope : Scope K V}

omit [Conversion K V] in
theorem exists_mergesIssue {tree : Merging (Link K V S)} {session after : Session K V S}
    {link : Link K V S}
    (h : Run.from? session (tree.reduce scope.mergeLinks) = (.ok link, after)) :
    ∃ issues, MergesIssue scope session tree link after issues := by
  induction tree generalizing session link after with
  | operand first =>
      obtain ⟨rfl, rfl⟩ := Run.from?_pure_eq_ok.mp h
      exact ⟨_, .operand⟩
  | merge left op right ihl ihr =>
      rw [Merging.reduce] at h
      obtain ⟨a, between, ha, hbehind⟩ := Run.from?_bind_eq_ok.mp h
      obtain ⟨b, merging, hb, hstep⟩ := Run.from?_bind_eq_ok.mp hbehind
      obtain ⟨issues, hleft⟩ := ihl ha
      obtain ⟨issues', hright⟩ := ihr hb
      exact ⟨_, .merge hleft hright hstep⟩

-- By induction on the derivation: wherever it has a rule for a meaning, it has one for the names.
mutual

theorem OperandsMean.exists_issue : ∀ {chain : Chain} {depth : Nat}
    {session after : Session K V S} {links : Link K V S × List (Link K V S)},
    OperandsMean scope depth session chain links after →
      ∃ issues, OperandsIssue scope depth session chain links after issues
  | .last term, depth, session, after, links, h => by
      cases h with
      | last hterm hlink =>
          obtain ⟨issues, hissues⟩ := hterm.exists_issues
          exact ⟨_, .last hissues hlink⟩
  | .join term op rest, depth, session, after, links, h => by
      cases h with
      | join hterm hlink hrest =>
          obtain ⟨issues, hissues⟩ := hterm.exists_issues
          obtain ⟨issues', hissues'⟩ := hrest.exists_issue
          exact ⟨_, .join hissues hlink hissues'⟩
  | .broken term wanted left, depth, session, after, links, h => by
      cases h

theorem TermMeans.exists_issues : ∀ {term : Term} {depth : Nat}
    {session after : Session K V S} {part : Part K V S},
    TermMeans scope depth session term part after →
      ∃ issues, TermIssues scope depth session term part after issues
  | .token text, depth, session, after, part, h => by
      cases h with
      | token h => exact ⟨_, .token h⟩
  | .missing left, depth, session, after, part, h => by
      cases h
  | .group negated body, depth, session, after, part, h => by
      cases h with
      | group hbody hsigned =>
          obtain ⟨hoperands, hmerge⟩ := hbody
          obtain ⟨issues, hissues⟩ := hoperands.exists_issue
          obtain ⟨issues', hissues'⟩ :=
            exists_mergesIssue (scope.merge_eq_reduce hoperands.isRow ▸ hmerge)
          exact ⟨_, .group (.merged hissues hissues') hsigned⟩
  | .call negated name arguments, depth, session, after, part, h => by
      cases h with
      | call hname harguments hcount hcall hsigned =>
          obtain ⟨issues, hissues⟩ := harguments.exists_issue
          exact ⟨_, .call hname hissues hcall hsigned⟩

theorem ArgumentsMean.exists_issue : ∀ {arguments : Arguments} {depth : Nat}
    {session after : Session K V S} {parts : List (Part K V S)},
    ArgumentsMean scope depth session arguments parts after →
      ∃ issues, ArgumentsIssue scope depth session arguments parts after issues
  | .none, depth, session, after, parts, h => by
      cases h
      exact ⟨_, .none⟩
  | .more first rest, depth, session, after, parts, h => by
      cases h with
      | more hfirst hrest =>
          obtain ⟨hoperands, hmerge⟩ := hfirst
          obtain ⟨issues, hissues⟩ := hoperands.exists_issue
          obtain ⟨issues', hissues'⟩ :=
            exists_mergesIssue (scope.merge_eq_reduce hoperands.isRow ▸ hmerge)
          obtain ⟨more, hmore⟩ := hrest.exists_issue
          exact ⟨_, .more (.merged hissues hissues') hmore⟩

end

theorem ChainMeans.exists_issues {chain : Chain} {depth : Nat} {session after : Session K V S}
    {part : Part K V S} (h : ChainMeans scope depth session chain part after) :
    ∃ issues, ChainIssues scope depth session chain part after issues := by
  obtain ⟨hoperands, hmerge⟩ := h
  obtain ⟨issues, hissues⟩ := hoperands.exists_issue
  obtain ⟨issues', hissues'⟩ :=
    exists_mergesIssue (scope.merge_eq_reduce hoperands.isRow ▸ hmerge)
  exact ⟨_, .merged hissues hissues'⟩

end Existence

section Order

variable {scope : Scope K V} {session after : Session K V S}

omit [Conversion K V] in
/-- The value of a token takes no number. -/
theorem TokenMeans.counter_eq {token : Text} {part : Part K V S}
    (h : TokenMeans scope session token part after) : after.counter = session.counter := by
  cases h with
  | number => rfl
  | name hnumber hname hsigned =>
      cases hname with
      | «variable» => rfl
      | keyword => rfl
      | file => exact Session.counter_foldl_addRecord _ _

omit [Coordinate K] [Number V] [Cell S V] [Conversion K V] in
theorem inOrder_link {depth : Nat} {action : Option Operator} {part : Part K V S}
    {link : Link K V S} (h : Run.from? session (Scope.link depth action part) = (.ok link, after)) :
    InOrder session.counter after.counter [⟨.operand, link.id⟩] := by
  obtain ⟨rfl, rfl⟩ := link_eq_ok.mp h
  exact .single rfl rfl

omit [Conversion K V] in
theorem inOrder_mergeLinks {left right link : Link K V S} {op : Operator}
    (h : Run.from? session (scope.mergeLinks left op right) = (.ok link, after)) :
    InOrder session.counter after.counter [⟨.operator, link.id⟩] := by
  obtain ⟨-, -, hcounter⟩ := Scope.mergeLinks_eq_ok h
  obtain ⟨value, combined, text, rfl, -, -⟩ := Scope.exists_emit_of_mergeLinks_eq_ok h
  exact .single hcounter rfl

/-- Computing a value takes no number, so that the one of a call comes behind its arguments. -/
theorem inOrder_call {function : Function} {arguments : List (Part K V S)} {part : Part K V S}
    (h : Run.from? session (scope.call function arguments) = (.ok part, after)) :
    InOrder session.counter after.counter [⟨.call, part.token⟩] := by
  obtain ⟨value, computed, text, rfl, hvalue, hemit⟩ := exists_emit_of_call_eq_ok h
  have hcomputed : computed.counter = session.counter := by
    rw [← (Run.from?_traced_eq_ok.mp hvalue).2, Session.counter_foldl_addRecord]
  have hcounter : after.counter = computed.counter + 1 :=
    (emit_sameCounter _ _ _ _).of_eq_ok hemit
  exact .single (hcounter.trans (by rw [hcomputed])) (by rw [hcomputed])

/-- How many of some issues are for operands, operators or calls. -/
def tally (what : Numbered) (issues : List Issue) : Nat :=
  (issues.map Issue.what).count what

theorem tally_append (what : Numbered) (issues issues' : List Issue) :
    tally what (issues ++ issues') = tally what issues + tally what issues' := by
  unfold tally
  rw [List.map_append, List.count_append]

theorem tally_single (what other : Numbered) (id : Text) :
    tally what [⟨other, id⟩] = if what = other then 1 else 0 := by
  unfold tally
  rw [List.map_singleton, List.count_singleton]
  simp only [beq_iff_eq, eq_comm (a := other)]

/-- Every issue is for an operand, an operator or a call. -/
theorem length_eq_tallies (issues : List Issue) : issues.length =
    tally .operand issues + tally .operator issues + tally .call issues := by
  induction issues with
  | nil => rfl
  | cons issue rest ih =>
      obtain ⟨what, id⟩ := issue
      rw [← List.singleton_append, tally_append, tally_append, tally_append, tally_single,
        tally_single, tally_single, List.length_append, ih, List.length_singleton]
      cases what <;> simp <;> omega

omit [Conversion K V] in
/-- The merges of a tree take one number each, in the order in which they are carried out. -/
theorem MergesIssue.inOrder {tree : Merging (Link K V S)} {link : Link K V S}
    {issues : List Issue} (h : MergesIssue scope session tree link after issues) :
    InOrder session.counter after.counter issues ∧
      ∀ what, tally what issues = if what = .operator then tree.count else 0 := by
  induction h with
  | operand =>
      refine ⟨.nil rfl, fun what => ?_⟩
      rw [Merging.count, ite_self]
      rfl
  | merge hleft hright hmerge ihl ihr =>
      refine ⟨(ihl.1.append ihr.1).append (inOrder_mergeLinks hmerge), fun what => ?_⟩
      rw [tally_append, tally_append, tally_single, ihl.2, ihr.2, Merging.count]
      split <;> rfl

omit [Conversion K V] in
/-- The merges of a chain are one less than its operands. -/
theorem MergesIssue.of_row {first link : Link K V S} {rest : List (Link K V S)}
    {issues : List Issue} (hrow : IsRow ((first :: rest).map Link.placed))
    (h : MergesIssue scope session (bySplitting first (joins first.action (rest.map Link.placed)))
      link after issues) :
    InOrder session.counter after.counter issues ∧
      ∀ what, tally what issues = if what = .operator then rest.length else 0 := by
  have hcount : (bySplitting first (joins first.action (rest.map Link.placed))).count =
      rest.length := by
    rw [Merging.count_eq_length_rest, rest_bySplitting]
    exact hrow.length_joins.trans (List.length_map _)
  rw [← hcount]
  exact h.inOrder

-- By induction on the derivation. A chain counts an operator where it goes on, and its merges are
-- counted behind all of its operands, so the operands say how many merges are due.
mutual

theorem OperandsIssue.inOrder : ∀ {chain : Chain} {depth : Nat} {session after : Session K V S}
    {first : Link K V S} {rest : List (Link K V S)} {issues : List Issue},
    OperandsIssue scope depth session chain (first, rest) after issues →
      InOrder session.counter after.counter issues ∧
        IsRow ((first :: rest).map Link.placed) ∧
        ∀ what, tally what issues + (if what = .operator then rest.length else 0) =
          chain.count what
  | .last term, depth, session, after, first, rest, issues, h => by
      cases h with
      | last hterm hlink =>
          obtain ⟨horder, htally⟩ := hterm.inOrder
          refine ⟨horder.append (inOrder_link hlink), ?_, fun what => ?_⟩
          · obtain ⟨rfl, -⟩ := link_eq_ok.mp hlink
            rfl
          · rw [tally_append, tally_single, htally, Chain.count, List.length_nil, ite_self]
            rfl
  | .join term op more, depth, session, after, first, rest, issues, h => by
      cases h with
      | join hterm hlink hrest =>
          obtain ⟨horder, htally⟩ := hterm.inOrder
          obtain ⟨horder', hrow, htally'⟩ := hrest.inOrder
          refine ⟨(horder.append (inOrder_link hlink)).append horder', ?_, fun what => ?_⟩
          · obtain ⟨rfl, -⟩ := link_eq_ok.mp hlink
            exact ⟨Option.some_ne_none op, hrow⟩
          · rw [tally_append, tally_append, tally_single, htally, Chain.count, ← htally',
              List.length_cons]
            split_ifs <;> omega
  | .broken term wanted left, depth, session, after, first, rest, issues, h => by
      cases h

theorem TermIssues.inOrder : ∀ {term : Term} {depth : Nat} {session after : Session K V S}
    {part : Part K V S} {issues : List Issue},
    TermIssues scope depth session term part after issues →
      InOrder session.counter after.counter issues ∧ ∀ what, tally what issues = term.count what
  | .token text, depth, session, after, part, issues, h => by
      cases h with
      | token h => exact ⟨.nil h.counter_eq, fun what => rfl⟩
  | .missing left, depth, session, after, part, issues, h => by
      cases h
  | .group negated body, depth, session, after, part, issues, h => by
      cases h with
      | group hbody hsigned =>
          obtain ⟨hoperands, hmerge⟩ := hbody
          obtain ⟨horder, hrow, htally⟩ := hoperands.inOrder
          obtain ⟨horder', htally'⟩ := hmerge.of_row hrow
          refine ⟨horder.append horder', fun what => ?_⟩
          rw [tally_append, htally', htally, Term.count]
  | .call negated name arguments, depth, session, after, part, issues, h => by
      cases h with
      | call hname harguments hcall hsigned =>
          obtain ⟨horder, htally⟩ := harguments.inOrder
          refine ⟨horder.append (inOrder_call hcall), fun what => ?_⟩
          rw [tally_append, tally_single, htally, Term.count]

theorem ArgumentsIssue.inOrder : ∀ {arguments : Arguments} {depth : Nat}
    {session after : Session K V S} {parts : List (Part K V S)} {issues : List Issue},
    ArgumentsIssue scope depth session arguments parts after issues →
      InOrder session.counter after.counter issues ∧
        ∀ what, tally what issues = arguments.count what
  | .none, depth, session, after, parts, issues, h => by
      cases h
      exact ⟨.nil rfl, fun what => rfl⟩
  | .more first rest, depth, session, after, parts, issues, h => by
      cases h with
      | more hfirst hrest =>
          obtain ⟨hoperands, hmerge⟩ := hfirst
          obtain ⟨horder, hrow, htally⟩ := hoperands.inOrder
          obtain ⟨horder', htally'⟩ := hmerge.of_row hrow
          obtain ⟨horder'', htally''⟩ := hrest.inOrder
          refine ⟨(horder.append horder').append horder'', fun what => ?_⟩
          rw [tally_append, tally_append, htally', htally, htally'', Arguments.count]

end

/-- A chain takes a number for each of its operands, operators and calls, in order. -/
theorem ChainIssues.inOrder {chain : Chain} {depth : Nat} {part : Part K V S}
    {issues : List Issue} (h : ChainIssues scope depth session chain part after issues) :
    InOrder session.counter after.counter issues ∧
      ∀ what, tally what issues = chain.count what := by
  obtain ⟨hoperands, hmerge⟩ := h
  obtain ⟨horder, hrow, htally⟩ := hoperands.inOrder
  obtain ⟨horder', htally'⟩ := hmerge.of_row hrow
  refine ⟨horder.append horder', fun what => ?_⟩
  rw [tally_append, htally', htally]

end Order

/-- An expression that has a value in a session. -/
structure Parsed (K V S : Type) [Coordinate K] [Number V] [Cell S V] [Conversion K V] where
  settings : Settings K V
  source : Text
  before : Session K V S
  found : Operand K V S × Provenance
  after : Session K V S
  gives : Run.from? before (parse settings source) = (.ok found, after)

namespace Parsed

variable {parsed : Parsed K V S}

/-- The derivation of the expression. -/
def Derives (parsed : Parsed K V S) (chain : Chain) : Prop :=
  ∃ prepared, prepare parsed.source parsed.before.table.namesLongestFirst = .ok prepared ∧
    chain.Spells prepared.text

/-- The names that were taken for the expression. -/
def Issues (parsed : Parsed K V S) (issues : List Issue) : Prop :=
  ∃ prepared chain part, prepare parsed.source parsed.before.table.namesLongestFirst =
      .ok prepared ∧ chain.Spells prepared.text ∧
    ChainIssues ⟨parsed.settings, prepared⟩ 0 parsed.before chain part parsed.after issues ∧
    parsed.found.1 = part.value

theorem Derives.unique {chain other : Chain} (h : parsed.Derives chain)
    (h' : parsed.Derives other) : other = chain := by
  obtain ⟨prepared, hprepare, hspells⟩ := h
  obtain ⟨_, hprepare', hspells'⟩ := h'
  cases hprepare.symm.trans hprepare'
  exact hspells'.unique hspells

theorem exists_issues (parsed : Parsed K V S) :
    ∃ chain issues, parsed.Derives chain ∧ parsed.Issues issues := by
  obtain ⟨prepared, chain, part, hprepare, hspells, -, hmeans, hvalue, -⟩ :=
    exists_means_of_parse_eq_ok parsed.gives
  obtain ⟨issues, hissues⟩ := hmeans.exists_issues
  exact ⟨chain, issues, ⟨prepared, hprepare, hspells⟩, prepared, chain, part, hprepare, hspells,
    hissues, hvalue⟩

theorem Issues.inOrder {issues : List Issue} (h : parsed.Issues issues) :
    InOrder parsed.before.counter parsed.after.counter issues := by
  obtain ⟨prepared, chain, part, -, -, hissues, -⟩ := h
  exact hissues.inOrder.1

theorem Issues.tally_eq {issues : List Issue} {chain : Chain} (h : parsed.Issues issues)
    (hchain : parsed.Derives chain) (what : Numbered) : tally what issues = chain.count what := by
  obtain ⟨prepared, other, part, hprepare, hspells, hissues, -⟩ := h
  rw [hissues.inOrder.2, hchain.unique ⟨prepared, hprepare, hspells⟩]

theorem counter_eq {chain : Chain} (h : parsed.Derives chain) :
    parsed.after.counter = parsed.before.counter + chain.count .operand + chain.count .operator +
      chain.count .call := by
  obtain ⟨_, issues, -, hissues⟩ := parsed.exists_issues
  rw [hissues.inOrder.stop_eq, length_eq_tallies, hissues.tally_eq h, hissues.tally_eq h,
    hissues.tally_eq h, Nat.add_assoc, Nat.add_assoc, Nat.add_assoc]

end Parsed

/-- Expressions read in turn, the first one from a count on. What happens to the variables and the
files between them does not matter. -/
def InTurn : Nat → List (Parsed K V S) → Prop
  | _, [] => True
  | start, parsed :: rest => parsed.before.counter = start ∧ InTurn parsed.after.counter rest

theorem InTurn.inOrder {start : Nat} {parses : List (Parsed K V S)} {issued : List (List Issue)}
    (h : InTurn start parses) (hissued : List.Forall₂ Parsed.Issues parses issued) :
    ∃ stop, InOrder start stop issued.flatten := by
  induction hissued generalizing start with
  | nil => exact ⟨start, .nil rfl⟩
  | cons hfirst hrest ih =>
      obtain ⟨hstart, hturn⟩ := h
      obtain ⟨stop, hbehind⟩ := ih hturn
      exact ⟨stop, (hstart ▸ hfirst.inOrder).append hbehind⟩

theorem exists_issued (parses : List (Parsed K V S)) :
    ∃ issued, List.Forall₂ Parsed.Issues parses issued := by
  induction parses with
  | nil => exact ⟨[], .nil⟩
  | cons parsed rest ih =>
      obtain ⟨_, issues, -, hissues⟩ := parsed.exists_issues
      obtain ⟨issued, hissued⟩ := ih
      exact ⟨_, .cons hissues hissued⟩

/-- Each of the expressions that are read in turn has one derivation, and moves the count of the
session on by the number of operands, operators and calls in it, groups and arguments included. The
names that are taken for all of them are those of the numbers behind the first count, in order and
none of them twice, and no two merges or calls write to one file. -/
theorem numbers_in_turn {start : Nat} {parses : List (Parsed K V S)} (h : InTurn start parses) :
    (∀ parsed ∈ parses, ∃ chain, (∀ other, parsed.Derives other ↔ other = chain) ∧
      parsed.after.counter = parsed.before.counter + chain.count .operand +
        chain.count .operator + chain.count .call ∧
      ∀ issues, parsed.Issues issues → ∀ what, tally what issues = chain.count what) ∧
    (∃ issued, List.Forall₂ Parsed.Issues parses issued) ∧
    ∀ issued, List.Forall₂ Parsed.Issues parses issued →
      let issues := issued.flatten
      let results := (issues.filter Issue.isResult).map Issue.id
      issues.map Issue.id = (List.range' (start + 1) issues.length).map expressionId ∧
      (issues.map Issue.id).Nodup ∧ results.Nodup ∧
      ∀ (settings : Settings K V) (files : FileTree),
        (results.map (tracePath settings files)).Nodup := by
  refine ⟨fun parsed _ => ?_, exists_issued parses, fun issued hissued => ?_⟩
  · obtain ⟨chain, _, hchain, -⟩ := parsed.exists_issues
    refine ⟨chain, fun other => ⟨hchain.unique, ?_⟩, Parsed.counter_eq hchain,
      fun issues hissues => hissues.tally_eq hchain⟩
    rintro rfl
    exact hchain
  · obtain ⟨stop, horder⟩ := h.inOrder hissued
    have hresults : ((issued.flatten.filter Issue.isResult).map Issue.id).Nodup :=
      horder.nodup.sublist (List.filter_sublist.map Issue.id)
    exact ⟨horder.ids, horder.nodup, hresults, fun settings files =>
      nodup_tracePath settings files hresults⟩

section Groups

/-- A sum of two numbers. -/
def sum : Text := "1+2".toList

/-- Nothing but the six numbers that the call of two groups takes: four for its arguments and what
stands in them, one for the call, and one for the call as an operand. -/
def counted : Session Float Float Float32 :=
  { bare with counter := 6 }

theorem not_awaitsSign_one : ¬ AwaitsSign ['1'] := by
  rw [← awaitsExponent_iff]
  decide

theorem spells_sum : (Chain.join (.token ['1']) .add (.last (.token ['2']))).Spells sum :=
  .join (.token (isToken_single (by decide)))
    (fun hawaits => absurd hawaits not_awaitsSign_one)
    (.last (.token (isToken_single (by decide))))

theorem prepare_sum : prepare sum counted.table.namesLongestFirst = .ok ⟨sum, sum, []⟩ := by
  decide +kernel

theorem exists_sum_eq_ok : ∃ found after,
    Run.from? counted (parse (Settings.limited {} 2) sum) = (.ok found, after) := by
  let scope : Scope Float Float := ⟨Settings.limited {} 2, ⟨sum, sum, []⟩⟩
  have hone : (literal? ['1'] : Option Float) = some 1 := by decide +kernel
  have htwo : (literal? ['2'] : Option Float) = some 2 := by decide +kernel
  have hfirst : Run.from? counted (scope.resolveToken ['1']) = _ :=
    resolveToken_eq_ok.mpr (.number hone)
  have hsecond : Run.from? { counted with counter := 7 } (scope.resolveToken ['2']) = _ :=
    resolveToken_eq_ok.mpr (.number htwo)
  have htext : sum = ['1'] ++ (Operator.add.sign ++ ['2']) := by decide
  obtain ⟨hexists, -⟩ := parse_pair_eq_ok prepare_sum htext (isToken_single (by decide))
    not_awaitsSign_one (isToken_single (by decide)) (by decide) hfirst hsecond rfl
  obtain ⟨provenance, after, hrun⟩ := hexists rfl
  exact ⟨_, after, hrun⟩

/-- The call of two groups takes the numbers up to six, and the sum read after it the three that
follow. -/
theorem numbers_of_groups_and_sum : ∃ groups added : Parsed Float Float Float32,
    InTurn 0 [groups, added] ∧ groups.source = twoGroups ∧ added.source = sum ∧
      groups.after.counter = 6 ∧ added.after.counter = 9 ∧
      ∃ issued, List.Forall₂ Parsed.Issues [groups, added] issued ∧
        (issued.flatten.map Issue.id).Nodup ∧
        issued.flatten.map Issue.id =
          (List.range' 1 issued.flatten.length).map expressionId := by
  obtain ⟨found, after, hgroups⟩ := exists_twoGroups_eq_ok
  obtain ⟨found', after', hadded⟩ := exists_sum_eq_ok
  let groups : Parsed Float Float Float32 :=
    ⟨Settings.limited {} 2, twoGroups, bare, found, after, hgroups⟩
  let added : Parsed Float Float Float32 :=
    ⟨Settings.limited {} 2, sum, counted, found', after', hadded⟩
  have hderives : groups.Derives (.last (.call false "max".toList groupArguments)) :=
    ⟨_, prepare_twoGroups, spells_twoGroups⟩
  have hderives' : added.Derives (.join (.token ['1']) .add (.last (.token ['2']))) :=
    ⟨_, prepare_sum, spells_sum⟩
  have hsix : groups.after.counter = 6 := Parsed.counter_eq hderives
  have hturn : InTurn 0 [groups, added] := ⟨rfl, hsix.symm, trivial⟩
  obtain ⟨hcounts, ⟨issued, hissued⟩, hall⟩ := numbers_in_turn hturn
  obtain ⟨chain, hunique, hcounter, -⟩ := hcounts added (by simp)
  obtain ⟨hids, hnodup, -, -⟩ := hall issued hissued
  have hchain := (hunique _).mp hderives'
  rw [← hchain] at hcounter
  exact ⟨groups, added, hturn, rfl, rfl, hsix, hcounter, issued, hissued, hnodup, hids⟩

end Groups

end Expression

end MapAlgebra
