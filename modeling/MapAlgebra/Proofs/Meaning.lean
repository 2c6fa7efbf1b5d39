import MapAlgebra.Expression.Evaluation
import MapAlgebra.Proofs.Run

/-!
# The meaning of derivations

What a derivation means is put together from what its parts mean, one rule for each production.
Rules lead from the session before a part to its value and the session after it, since names of
variables load their grids and every operand, call and merge takes a number.
-/

namespace MapAlgebra.Expression

variable {K V S : Type} [Coordinate K] [Number V] [Cell S V] [Conversion K V]

/-- A minus sign negates the value and stays in front of the token. -/
inductive Signed : Bool → Part K V S → Part K V S → Prop
  | plain {part : Part K V S} : Signed false part part
  | negated {part : Part K V S} {value : Operand K V S} (h : part.value.negate = .ok value) :
      Signed true part { part with value, token := '-' :: part.token }

/-- A name means a variable, the keyword for no data, or an existing file. -/
inductive NameMeans (scope : Scope K V) (session : Session K V S) (name : Text) :
    Part K V S → Session K V S → Prop
  | variable {bound : Text} {binding : Binding K V S} {loaded value : Operand K V S}
      (hname : scope.prepared.name? name = some bound)
      (hbinding : session.table.item bound = .ok binding)
      (hload : binding.value.load session.files = .ok loaded)
      (hvalue : value = substituteNodata scope.settings loaded) :
      NameMeans scope session name
        ⟨value, if value.isConstant then .constant else .variable, binding.name⟩
        { session with table := session.table.update value }
  | keyword (hname : scope.prepared.name? name = none) (h : isNodataToken name) :
      NameMeans scope session name ⟨.constant .ofKeyword, .constant, Constant.nodataName⟩ session
  | file {opened loaded : Grid K V S} {records : List Record}
      (hname : scope.prepared.name? name = none) (hkeyword : ¬ isNodataToken name)
      (hsuffix : Text.endsCaseless idfSuffix name)
      (hexists : session.files.pathExists (scope.settings.resolveInput name))
      (hread : (Grid.read session.files (scope.settings.resolveInput name)).outcome =
        (.ok opened, records))
      (hload : opened.load session.files = .ok loaded) :
      NameMeans scope session name ⟨substituteNodata scope.settings (.grid loaded), .file, name⟩
        (records.foldl Session.addRecord session)

/-- A token means the number that it writes, or what its name means with its minus sign. -/
inductive TokenMeans (scope : Scope K V) (session : Session K V S) (token : Text) :
    Part K V S → Session K V S → Prop
  | number {value : V} (h : literal? token = some value) :
      TokenMeans scope session token ⟨.constant (.of value), .constant, token⟩ session
  | name {part result : Part K V S} {after : Session K V S}
      (hnumber : (literal? token : Option V) = none)
      (hname : NameMeans scope session (signedName token).2 part after)
      (hsigned : Signed (signedName token).1 part result) :
      TokenMeans scope session token result after

mutual

/-- The operands of a chain mean links, each with the next number and its operator. -/
inductive OperandsMean (scope : Scope K V) :
    Nat → Session K V S → Chain → Link K V S × List (Link K V S) → Session K V S → Prop
  | last {depth : Nat} {session between after : Session K V S} {term : Term} {part : Part K V S}
      {first : Link K V S} (hterm : TermMeans scope depth session term part between)
      (hlink : Run.from? between (Scope.link depth none part) = (.ok first, after)) :
      OperandsMean scope depth session (.last term) (first, []) after
  | join {depth : Nat} {session between behind after : Session K V S} {term : Term} {op : Operator}
      {rest : Chain} {part : Part K V S} {first second : Link K V S} {more : List (Link K V S)}
      (hterm : TermMeans scope depth session term part between)
      (hlink : Run.from? between (Scope.link depth (some op) part) = (.ok first, behind))
      (hrest : OperandsMean scope depth behind rest (second, more) after) :
      OperandsMean scope depth session (.join term op rest) (first, second :: more) after

/-- A chain means what its operands are merged to. -/
inductive ChainMeans (scope : Scope K V) :
    Nat → Session K V S → Chain → Part K V S → Session K V S → Prop
  | merged {depth : Nat} {session between after : Session K V S} {chain : Chain}
      {first merged : Link K V S} {rest : List (Link K V S)}
      (hoperands : OperandsMean scope depth session chain (first, rest) between)
      (hmerge : Run.from? between (scope.merge first rest) = (.ok merged, after)) :
      ChainMeans scope depth session chain merged.toPart after

/-- A group means what its chain means, and a call what its function makes of the arguments. -/
inductive TermMeans (scope : Scope K V) :
    Nat → Session K V S → Term → Part K V S → Session K V S → Prop
  | token {depth : Nat} {session after : Session K V S} {token : Text} {part : Part K V S}
      (h : TokenMeans scope session token part after) :
      TermMeans scope depth session (.token token) part after
  | group {depth : Nat} {session after : Session K V S} {negated : Bool} {body : Chain}
      {part result : Part K V S} (hbody : ChainMeans scope (depth + 1) session body part after)
      (hsigned : Signed negated part result) :
      TermMeans scope depth session (.group negated body) result after
  | call {depth : Nat} {session between after : Session K V S} {negated : Bool} {name : Text}
      {arguments : Arguments} {function : Function} {parts : List (Part K V S)}
      {part result : Part K V S} (hname : Function.ofName? name = some function)
      (harguments : ArgumentsMean scope (depth + 1) session arguments parts between)
      (hcount : function.admits parts.length)
      (hcall : Run.from? between (scope.call function parts) = (.ok part, after))
      (hsigned : Signed negated part result) :
      TermMeans scope depth session (.call negated name arguments) result after

/-- Arguments mean the list of what they mean one by one. -/
inductive ArgumentsMean (scope : Scope K V) :
    Nat → Session K V S → Arguments → List (Part K V S) → Session K V S → Prop
  | none {depth : Nat} {session : Session K V S} :
      ArgumentsMean scope depth session .none [] session
  | more {depth : Nat} {session between after : Session K V S} {first : Chain} {rest : Arguments}
      {part : Part K V S} {parts : List (Part K V S)}
      (hfirst : ChainMeans scope depth session first part between)
      (hrest : ArgumentsMean scope depth between rest parts after) :
      ArgumentsMean scope depth session (.more first rest) (part :: parts) after

end

mutual

/-- How deep parentheses are nested. -/
def Chain.nesting : Chain → Nat
  | .last term => term.nesting
  | .join term _ rest => max term.nesting rest.nesting
  | .broken term _ _ => term.nesting

def Term.nesting : Term → Nat
  | .token _ => 0
  | .missing _ => 0
  | .group _ body => body.nesting + 1
  | .call _ _ arguments => arguments.nesting + 1

def Arguments.nesting : Arguments → Nat
  | .none => 0
  | .more first rest => max first.nesting rest.nesting

end

section Tokens

variable {scope : Scope K V} {session after : Session K V S} {part result : Part K V S}

omit [Coordinate K] [Conversion K V] in
theorem signed_eq_ok {negated : Bool} :
    Run.from? session (Scope.signed negated part) = (.ok result, after) ↔
      Signed negated part result ∧ after = session := by
  cases negated with
  | false =>
      show Run.from? session (pure part) = _ ↔ _
      rw [Run.from?_pure, Prod.mk.injEq, Except.ok.injEq]
      constructor
      · rintro ⟨rfl, rfl⟩
        exact ⟨.plain, rfl⟩
      · rintro ⟨h, rfl⟩
        cases h
        exact ⟨rfl, rfl⟩
  | true =>
      show Run.from? session (liftExcept part.value.negate >>= _) = _ ↔ _
      rw [Run.from?_bind_eq_ok]
      constructor
      · rintro ⟨value, between, hlift, hresult⟩
        obtain ⟨hvalue, rfl⟩ := Run.from?_liftExcept_eq_ok.mp hlift
        cases hresult
        exact ⟨.negated hvalue, rfl⟩
      · rintro ⟨h, rfl⟩
        cases h with
        | negated h =>
            exact ⟨_, after, Run.from?_liftExcept_eq_ok.mpr ⟨h, rfl⟩, rfl⟩

omit [Conversion K V] in
theorem readVariable_eq_ok {name : Text} :
    Run.from? session (scope.readVariable name) = (.ok part, after) ↔
      ∃ binding loaded, session.table.item name = .ok binding ∧
        binding.value.load session.files = .ok loaded ∧
        part = ⟨substituteNodata scope.settings loaded,
          if (substituteNodata scope.settings loaded).isConstant then .constant else .variable,
          binding.name⟩ ∧
        after = { session with
          table := session.table.update (substituteNodata scope.settings loaded) } := by
  unfold Scope.readVariable
  simp only [Run.from?_bind_eq_ok, Run.from?_get, Run.from?_liftExcept, Run.from?_set,
    Run.from?_pure, Prod.mk.injEq, Except.ok.injEq]
  constructor
  · rintro ⟨_, _, ⟨rfl, rfl⟩, binding, _, ⟨hbinding, rfl⟩, loaded, _, ⟨hload, rfl⟩, _, _, ⟨-, rfl⟩,
      rfl, rfl⟩
    exact ⟨binding, loaded, hbinding, hload, rfl, rfl⟩
  · rintro ⟨binding, loaded, hbinding, hload, rfl, rfl⟩
    exact ⟨_, _, ⟨rfl, rfl⟩, binding, _, ⟨hbinding, rfl⟩, loaded, _, ⟨hload, rfl⟩, (), _,
      ⟨trivial, rfl⟩, rfl, rfl⟩

omit [Conversion K V] in
theorem readFile_eq_ok {name : Text} {value : Operand K V S} :
    Run.from? session (scope.readFile name) = (.ok value, after) ↔
      ∃ opened loaded records, session.files.pathExists (scope.settings.resolveInput name) ∧
        (Grid.read session.files (scope.settings.resolveInput name)).outcome =
          (.ok opened, records) ∧
        opened.load session.files = .ok loaded ∧ value = .grid loaded ∧
        after = records.foldl Session.addRecord session := by
  unfold Scope.readFile
  rw [Run.from?_bind_eq_ok]
  constructor
  · rintro ⟨_, _, hget, h⟩
    cases hget
    dsimp only at h
    split at h
    next => split at h <;> cases h
    next hexists =>
      simp only [Run.from?_bind_eq_ok, Run.from?_traced, Run.from?_liftExcept, Run.from?_pure,
        Prod.mk.injEq, Except.ok.injEq] at h
      obtain ⟨opened, _, ⟨hread, rfl⟩, loaded, _, ⟨hload, rfl⟩, rfl, rfl⟩ := h
      exact ⟨opened, loaded, _, by simpa using hexists, Prod.ext hread rfl, hload, rfl, rfl⟩
  · rintro ⟨opened, loaded, records, hexists, hread, hload, rfl, rfl⟩
    refine ⟨session, session, rfl, ?_⟩
    dsimp only
    rw [if_neg (by simp [hexists])]
    simp only [Run.from?_bind_eq_ok, Run.from?_traced, Run.from?_liftExcept, Run.from?_pure,
      Prod.mk.injEq, Except.ok.injEq]
    exact ⟨opened, _, ⟨by rw [hread], rfl⟩, loaded, _, ⟨hload, rfl⟩, rfl, by rw [hread]⟩

omit [Conversion K V] in
theorem resolveName_eq_ok {name : Text} :
    Run.from? session (scope.resolveName name) = (.ok part, after) ↔
      NameMeans scope session name part after := by
  unfold Scope.resolveName
  cases hname : scope.prepared.name? name with
  -- the name of a variable hides the keyword and the files of that name
  | some bound =>
      dsimp only
      rw [readVariable_eq_ok]
      constructor
      · rintro ⟨binding, loaded, hbinding, hload, rfl, rfl⟩
        exact .variable hname hbinding hload rfl
      · intro h
        cases h with
        | «variable» hbound hbinding hload hvalue =>
            cases hname.symm.trans hbound
            subst hvalue
            exact ⟨_, _, hbinding, hload, rfl, rfl⟩
        | keyword hnone => cases hname.symm.trans hnone
        | file hnone => cases hname.symm.trans hnone
  | none =>
      dsimp only
      split
      next hkeyword =>
        rw [Run.from?_pure, Prod.mk.injEq, Except.ok.injEq]
        constructor
        · rintro ⟨rfl, rfl⟩
          exact .keyword hname hkeyword
        · intro h
          cases h with
          | «variable» hbound => cases hname.symm.trans hbound
          | keyword => exact ⟨rfl, rfl⟩
          | file hnone hno => exact absurd hkeyword hno
      next hkeyword =>
        split
        next hsuffix =>
          rw [Run.from?_bind_eq_ok]
          simp only [readFile_eq_ok, Run.from?_pure, Prod.mk.injEq, Except.ok.injEq]
          constructor
          · rintro ⟨_, _, ⟨opened, loaded, records, hexists, hread, hload, rfl, rfl⟩, rfl, rfl⟩
            exact .file hname hkeyword hsuffix hexists hread hload
          · intro h
            cases h with
            | «variable» hbound => cases hname.symm.trans hbound
            | keyword hnone h => exact absurd h hkeyword
            | file hnone hno hsuffix hexists hread hload =>
                exact ⟨_, _, ⟨_, _, _, hexists, hread, hload, rfl, rfl⟩, rfl, rfl⟩
        next hsuffix =>
          constructor
          · intro h
            cases h
          · intro h
            cases h with
            | «variable» hbound => cases hname.symm.trans hbound
            | keyword hnone h => exact absurd h hkeyword
            | file hnone hno h => exact absurd h hsuffix

omit [Conversion K V] in
theorem resolveToken_eq_ok {token : Text} :
    Run.from? session (scope.resolveToken token) = (.ok part, after) ↔
      TokenMeans scope session token part after := by
  unfold Scope.resolveToken
  cases hnumber : (literal? token : Option V) with
  | some value =>
      dsimp only
      rw [Run.from?_pure, Prod.mk.injEq, Except.ok.injEq]
      constructor
      · rintro ⟨rfl, rfl⟩
        exact .number hnumber
      · intro h
        cases h with
        | number h =>
            cases hnumber.symm.trans h
            exact ⟨rfl, rfl⟩
        | name h => cases hnumber.symm.trans h
  | none =>
      rcases hname : signedName token with ⟨negated, name⟩
      dsimp only
      rw [Run.from?_bind_eq_ok]
      simp only [resolveName_eq_ok, signed_eq_ok]
      constructor
      · rintro ⟨a, between, ha, hsigned, rfl⟩
        have hmeans : NameMeans scope session (signedName token).2 a after := hname ▸ ha
        have hminus : Signed (signedName token).1 a part := hname ▸ hsigned
        exact .name hnumber hmeans hminus
      · intro h
        cases h with
        | number h => cases hnumber.symm.trans h
        | name h ha hsigned =>
            rw [hname] at ha hsigned
            exact ⟨_, _, ha, hsigned, rfl⟩

end Tokens

end MapAlgebra.Expression
