import MapAlgebra.Proofs.Casing
import MapAlgebra.Proofs.Mentions
import MapAlgebra.Proofs.Notes

/-!
# Letter case

Two expressions that differ in the case of ASCII letters are evaluated in step. What is said of
their parts may differ, in metadata and log records, but no part has another value for it.
-/

namespace MapAlgebra

open Expression

variable {K V S : Type} [Coordinate K] [Number V] [Cell S V]

/-- Sessions from which evaluations go on in step: they have the same variables and numbers, and
stay related whatever is said of results. -/
structure Session.InStep (settings : Settings K V) (R : Session K V S → Session K V S → Prop) :
    Prop where
  table : ∀ {s t}, R s t → t.table = s.table
  counter : ∀ {s t}, R s t → t.counter = s.counter
  number : ∀ {s t}, R s t →
    R { s with counter := s.counter + 1 } { t with counter := t.counter + 1 }
  record : ∀ {s t} (record : Record), R s t → R (s.addRecord record) (t.addRecord record)
  load : ∀ {s t}, R s t → ∀ binding ∈ s.table.bindings,
    Matching Eq (binding.value.load s.files) (binding.value.load t.files)
  update : ∀ {s t} {operand loaded : Operand K V S}, R s t →
    operand.load s.files = .ok loaded →
      R { s with table := s.table.update (substituteNodata settings loaded) }
        { t with table := t.table.update (substituteNodata settings loaded) }
  emit : ∀ {s t} {heed : Fault → Prop} (id text text' : Text) (value : Operand K V S), R s t →
    Run.Agree R heed (fun _ _ => True) s t (emit settings id text value)
      (emit settings id text' value)

namespace Session

variable {settings : Settings K V}

/-- Without tracing nothing is said of results, and one session goes on as it does. -/
theorem inStep_eq (htraces : settings.traces = false) :
    InStep settings fun s t : Session K V S => t = s where
  table h := h ▸ rfl
  counter h := h ▸ rfl
  number h := h ▸ rfl
  record _ h := h ▸ rfl
  load h _ _ := .of_eq (h ▸ rfl)
  update h _ := h ▸ rfl
  emit id text text' value h := by
    unfold Expression.emit
    rw [htraces]
    exact .gives trivial h

theorem inStep_sameButNotes (aside : Place → Prop) :
    InStep settings (SameButNotes (K := K) (V := V) (S := S) aside) where
  table h := h.table
  counter h := h.counter
  number h := h.nextNumber
  record record h := h.addRecord record record
  load h binding hbinding := Operand.load_sameButNotes h.files (h.grids binding hbinding)
  update h hload := h.update hload settings
  emit id text text' value h := h.agree_emit settings id text text' value

end Session

namespace Expression

/-- A part of two expressions that differ in what is said of it. Its token is the keyword for no
data in both or in none. -/
structure Part.SameValue (part part' : Part K V S) : Prop where
  value : part'.value = part.value
  provenance : part'.provenance = part.provenance
  keyword : isNodataToken part'.token = isNodataToken part.token

namespace Part.SameValue

variable {part part' : Part K V S} (h : part.SameValue part')
include h

omit [Coordinate K] [Number V] [Cell S V] in
theorem grid (prepared prepared' : Prepared) (function : Function) (position : Nat) :
    Matching Eq (part.grid prepared function position)
      (part'.grid prepared' function position) := by
  unfold Part.grid
  rw [h.value]
  split
  next => exact .ok rfl
  next => exact .error rfl

omit [Coordinate K] [Number V] [Cell S V] in
theorem constant (prepared prepared' : Prepared) (function : Function) (position : Nat) :
    Matching Eq (part.constant prepared function position)
      (part'.constant prepared' function position) := by
  unfold Part.constant
  rw [h.value]
  split
  next => exact .ok rfl
  next => exact .error rfl

omit [Coordinate K] [Cell S V] in
theorem isNodata_eq : part'.isNodata = part.isNodata := by
  unfold Part.isNodata
  rw [h.keyword, h.value]

omit [Coordinate K] in
theorem negate :
    Matching (fun value value' => SameValue { part with value, token := '-' :: part.token }
      { part' with value := value', token := '-' :: part'.token }) part.value.negate
        part'.value.negate := by
  have hminus (token : Text) : isNodataToken ('-' :: token) = false := rfl
  rw [h.value]
  exact .self fun value _ => ⟨rfl, h.provenance, by rw [hminus, hminus]⟩

end Part.SameValue

theorem combine_eq {scope scope' : Scope K V} (hsettings : scope'.settings = scope.settings)
    {left left' right right' : Part K V S} (hleft : left.SameValue left')
    (hright : right.SameValue right') (op : Operator) :
    scope'.combine left' op right' = scope.combine left op right := by
  unfold Scope.combine Scope.nodataResolved
  rw [hsettings, hleft.keyword, hleft.value, hright.keyword, hright.value]

theorem choose_eq {condition condition' yes yes' no no' : Part K V S}
    (hcondition : condition.SameValue condition') (hyes : yes.SameValue yes')
    (hno : no.SameValue no') (fixed : Option (Extent K)) :
    choose fixed condition' yes' no' = choose fixed condition yes no := by
  unfold choose branch
  rw [hcondition.value, hyes.value, hno.value, hyes.isNodata_eq, hno.isNodata_eq]

omit [Number V] [Cell S V] in
theorem fit_sameValue {operand : Operand K V S} {reference reference' : Part K V S}
    (h : reference.SameValue reference') (prepared prepared' : Prepared) (function : Function)
    (change : Grid K V S → Extent K → Traced (Grid K V S)) :
    Traced.Matching Eq (fit prepared function operand reference change)
      (fit prepared' function operand reference' change) := by
  cases operand with
  | constant c => exact .pure rfl
  | grid g =>
      refine .bind (.lift (h.grid prepared prepared' function 2)) fun g' _ heq => ?_
      subst heq
      exact .of_eq rfl

variable [Conversion K V]

theorem rescale_sameValue {methods methods' : List (Part K V S)}
    (h : List.Forall₂ Part.SameValue methods methods') (prepared prepared' : Prepared)
    (grid : Grid K V S) (size : Operand K V S) :
    Traced.Matching Eq (rescale prepared grid size methods)
      (rescale prepared' grid size methods') := by
  unfold rescale
  dsimp only
  refine .ite (fun _ => .throw_bind rfl) fun _ => ?_
  refine .bind (.mapM (Q := Eq) (forall₂_zipIdx h 0) ?_) fun indices indices' hindices => ?_
  · rintro ⟨part, index⟩ ⟨part', _⟩ ⟨hpart, rfl⟩
    refine .bind (.lift (hpart.constant prepared prepared' .scale _)) fun c _ heq => ?_
    subst heq
    exact .of_eq rfl
  obtain rfl : indices = indices' := List.forall₂_eq_eq_eq ▸ hindices
  exact .of_eq rfl

theorem scale_sameValue {part part' size size' : Part K V S} {methods methods' : List (Part K V S)}
    (hpart : part.SameValue part') (hsize : size.SameValue size')
    (hmethods : List.Forall₂ Part.SameValue methods methods') (prepared prepared' : Prepared) :
    Traced.Matching Eq
      (match part.value with
        | .constant c => pure (.constant c)
        | .grid g => rescale prepared g size.value methods)
      (match part'.value with
        | .constant c => pure (.constant c)
        | .grid g => rescale prepared' g size'.value methods') := by
  rw [hpart.value, hsize.value]
  cases part.value with
  | constant c => exact .pure rfl
  | grid g => exact rescale_sameValue hmethods prepared prepared' g size.value

/-- A function of the same values computes the same, whatever is said of them. -/
theorem compute_sameValue {parts parts' : List (Part K V S)}
    (h : List.Forall₂ Part.SameValue parts parts') (fixed : Option (Extent K))
    (prepared prepared' : Prepared) (function : Function) :
    Traced.Matching Eq (function.compute fixed prepared parts)
      (function.compute fixed prepared' parts') := by
  unfold Function.compute
  rw [h.length_eq]
  refine .ite (fun _ => .throw_bind rfl) fun _ => ?_
  -- a list that is too short or too long for the function is refused on both sides
  rcases h with _ | ⟨h₁, _ | ⟨h₂, _ | ⟨h₃, hmore⟩⟩⟩
  · cases function <;> exact .throw rfl
  · cases function with
    | boundingBox =>
        dsimp only
        rw [h₁.value]
        exact .of_eq rfl
    | cellSize =>
        refine .bind (.lift (h₁.grid prepared prepared' .cellSize 1)) fun g _ heq => ?_
        subst heq
        exact .pure rfl
    | _ => exact .throw rfl
  · cases function with
    | minimum =>
        dsimp only
        rw [h₁.value, h₂.value]
        exact .of_eq rfl
    | maximum =>
        dsimp only
        rw [h₁.value, h₂.value]
        exact .of_eq rfl
    | round =>
        refine .bind (.lift (h₁.grid prepared prepared' .round 1)) fun g _ heq => ?_
        subst heq
        refine .bind (.lift (h₂.constant prepared prepared' .round 2)) fun c _ heq => ?_
        subst heq
        exact .of_eq rfl
    | enlarge =>
        dsimp only
        rw [h₁.value]
        exact fit_sameValue h₂ prepared prepared' .enlarge _
    | clip =>
        dsimp only
        rw [h₁.value]
        exact fit_sameValue h₂ prepared prepared' .clip _
    | scale => exact scale_sameValue h₁ h₂ .nil prepared prepared'
    | nodata =>
        dsimp only
        rw [h₁.value, h₂.value]
        exact .of_eq rfl
    | _ => exact .throw rfl
  · cases function with
    | ifThenElse =>
        cases hmore with
        | nil => exact .of_eq (choose_eq h₁ h₂ h₃ fixed).symm
        | cons => exact .throw rfl
    | scale => exact scale_sameValue h₁ h₂ (.cons h₃ hmore) prepared prepared'
    | _ => exact .throw rfl

omit [Conversion K V]

variable {R : Session K V S → Session K V S → Prop} {heed : Fault → Prop}
  {scope scope' : Scope K V} {s t : Session K V S} {source : Text} {names : List Text}

/-- A variable of both sessions is read alike when they go on in step. -/
theorem agree_readVariable_inStep (hsteps : Session.InStep scope.settings R)
    (hsettings : scope'.settings = scope.settings) (hst : R s t) (name : Text) :
    Run.Agree R heed Part.SameValue s t (scope.readVariable name)
      (scope'.readVariable name) := by
  have hitem : Matching (Shared (· ∈ s.table.bindings)) (s.table.item name)
      (t.table.item name) := by
    rw [hsteps.table hst]
    exact .shared fun binding hbinding =>
      (VariableTable.mem_of_get?_eq_some (VariableTable.item_eq_ok_iff.mp hbinding)).1
  unfold Scope.readVariable
  refine .get_bind (.bind (.lift hst hitem) ?_)
  rintro binding _ _ _ ⟨rfl, hbinding⟩ h
  refine .bind (.lift h (hsteps.load hst binding hbinding).and_eq) ?_
  rintro value _ _ _ ⟨rfl, hvalue, -⟩ -
  rw [hsettings]
  exact .bind (.set (hsteps.update hst hvalue)) fun _ _ _ _ _ h => .pure h ⟨rfl, rfl, rfl⟩

section Scopes

variable (hsteps : Session.InStep scope.settings R) (hsettings : scope'.settings = scope.settings)
  (hcase : scope.prepared.Recased scope'.prepared)
  (hprepare : prepare source names = .ok scope.prepared)
include hsteps hsettings hcase hprepare

/-- A name is looked up alike in both cases. -/
theorem agree_resolveName_recased {a b : Text} (hab : RecasedTexts a b)
    (hfile : ¬ Text.endsCaseless idfSuffix a) (hst : R s t) :
    Run.Agree R heed Part.SameValue s t (scope.resolveName a) (scope'.resolveName b) := by
  unfold Scope.resolveName
  rw [hcase.name?_eq hprepare hab]
  split
  next name _ => exact agree_readVariable_inStep hsteps hsettings hst name
  next =>
    have hfile' : ¬ Text.endsCaseless idfSuffix b := by
      rw [← hab.endsCaseless_eq]
      exact hfile
    rw [if_neg hfile, if_neg hfile', ← hab.isNodataToken_eq]
    exact .ite (fun _ => .pure hst ⟨rfl, rfl, rfl⟩) fun _ => .throw hst rfl

/-- A token is resolved alike in both cases. -/
theorem agree_resolveToken_recased {a b : Text} (hab : RecasedTexts a b)
    (hfile : ¬ Text.endsCaseless idfSuffix a) (hst : R s t) :
    Run.Agree R heed Part.SameValue s t (scope.resolveToken a) (scope'.resolveToken b) := by
  unfold Scope.resolveToken
  rw [← hab.literal?_eq]
  cases (literal? a : Option V) with
  | some value => exact .pure hst ⟨rfl, rfl, hab.isNodataToken_eq.symm⟩
  | none =>
      obtain ⟨hnegated, hname⟩ := hab.signedName
      dsimp only
      rw [← hnegated]
      exact .bind (agree_resolveName_recased hsteps hsettings hcase hprepare hname
        (fun hends => hfile (endsCaseless_of_signedName hends)) hst) fun _ _ _ _ hpart h =>
          Scope.agree_signed h _ hpart hpart.negate

/-- The two scopes agree on tokens that differ in the case of letters, on merges and on calls. -/
theorem agrees_of_recased [Conversion K V]
    (hfile : ¬ idfSuffix <:+: Text.lowerAscii scope.prepared.text) :
    Scope.Agrees R heed Part.SameValue
      (TokensAlike Recased (fun _ _ => False) scope.prepared.text) scope scope' where
  depth := by rw [hsettings]
  number hst := .nextId (hsteps.counter hst) (hsteps.number hst)
  token {s t a b} hst h := by
    refine agree_resolveToken_recased hsteps hsettings hcase hprepare (.of_alike h.1)
      (fun hends => hfile ?_) hst
    -- a token that ended like a file name would be part of the text
    exact (List.isSuffixOf_iff_suffix.mp hends).isInfix.trans (h.2.map _)
  merge op hst hleft hright := by
    refine Scope.agree_mergeLinks (P := fun _ => R) id
      (fun h => .nextId (hsteps.counter h) (hsteps.number h)) hst hsteps.record ?_
      fun number value value' hst hvalue => ?_
    · rw [combine_eq hsettings hleft hright]
      exact .self fun _ _ _ _ => ⟨rfl, rfl, rfl⟩
    · obtain rfl : value' = value := hvalue.value
      rw [hsettings]
      exact hsteps.emit _ _ _ _ hst
  call function hst hparts := by
    refine Scope.agree_call (P := fun _ => R) id
      (fun h => .nextId (hsteps.counter h) (hsteps.number h)) hst hsteps.record
      (hsettings ▸ (compute_sameValue hparts _ _ _ function).mono fun value value' heq number =>
        ⟨heq.symm, rfl, rfl⟩)
      fun number value value' hst hvalue => ?_
    obtain rfl : value' = value := hvalue.value
    rw [hsettings]
    exact hsteps.emit _ _ _ _ hst
  negate hpart := hpart.negate

end Scopes

/-- An expression is evaluated alike in both cases. -/
theorem agree_parse_recased [Conversion K V] {settings : Settings K V} {x y : Text}
    (hsteps : Session.InStep settings R) (hxy : RecasedTexts x y) (hfile : ¬ NamesFile x)
    (hst : R s t) :
    Run.Agree R heed Eq s t (parse settings x) (parse settings y) := by
  unfold parse
  refine .get_bind ?_
  rw [hsteps.table hst]
  rcases hxy.prepare s.table.namesLongestFirst with
    ⟨fault, fault', hprepare, hprepare'⟩ | ⟨prepared, prepared', hprepare, hprepare', hcase⟩
  · rw [hprepare, hprepare']
    refine .throw hst ?_
    cases isRefusal_of_prepare hprepare <;> cases isRefusal_of_prepare hprepare' <;> rfl
  · rw [hprepare, hprepare']
    have hnone := not_infix_of_prepare hprepare hfile
    have hlike := (Alike.of_forall₂ hcase.text).like_readChain RecasedTexts.areRead
    have hsettings : (⟨settings, prepared'⟩ : Scope K V).settings =
        (⟨settings, prepared⟩ : Scope K V).settings := rfl
    have hagrees : Scope.Agrees R heed Part.SameValue
        (TokensAlike Recased (fun _ _ => False) prepared.text) ⟨settings, prepared⟩
        ⟨settings, prepared'⟩ :=
      agrees_of_recased hsteps hsettings hcase hprepare hnone
    refine (agree_evaluate hagrees hlike hst).mono ?_
    rintro _ _ ⟨part, part', hpart, rfl, rfl⟩
    rw [hpart.value, hpart.provenance]

/-- The case of ASCII letters makes no difference to an expression without file names. In both cases
it has the same value, at the same cost in numbers, and leaves the same variables, or it fails in
the same way. With tracing on, log records quote the expression as it is spelled, so they must not
go to the file of a grid that the expression may read. -/
theorem parse_of_upperAscii_eq [Conversion K V] {settings : Settings K V}
    {session : Session K V S} {x y : Text} (hcase : Text.upperAscii x = Text.upperAscii y)
    (hfile : ¬ NamesFile x) (hlogs : settings.traces → session.LogsApart) :
    (∀ value provenance after,
      Run.from? session (parse settings x) = (.ok (value, provenance), after) →
        ∃ after', after'.table = after.table ∧ after'.counter = after.counter ∧
          Run.from? session (parse settings y) = (.ok (value, provenance), after')) ∧
    ∀ fault after, Run.from? session (parse settings x) = (.error fault, after) →
      ∃ fault' after', fault'.kind = fault.kind ∧ after'.table = after.table ∧
        after'.counter = after.counter ∧
          Run.from? session (parse settings y) = (.error fault', after') := by
  obtain ⟨R, hsteps, hst⟩ : ∃ R, Session.InStep settings R ∧ R session session := by
    cases htraces : settings.traces with
    | false => exact ⟨_, Session.inStep_eq htraces, rfl⟩
    | true => exact ⟨_, Session.inStep_sameButNotes _, .refl (hlogs htraces)⟩
  have hagree : Run.Agree R (fun _ => True) Eq session session (parse settings x)
      (parse settings y) :=
    agree_parse_recased hsteps (.of_upperAscii_eq hcase) hfile hst
  obtain ⟨hgives, hfails⟩ := hagree.outcomes
  refine ⟨fun value provenance after hrun => ?_, fun fault after hrun => ?_⟩
  · obtain ⟨found, after', hrun', rfl, hafter⟩ := hgives _ _ hrun
    exact ⟨after', hsteps.table hafter, hsteps.counter hafter, hrun'⟩
  · obtain ⟨fault', after', hrun', hkind, hafter⟩ := hfails _ _ hrun
    exact ⟨fault', after', hkind.symm, hsteps.table hafter, hsteps.counter hafter, hrun'⟩

/-- A product of a number and a variable in small letters. -/
def smallLetters : Text := "1e0*a".toList

/-- The same product in capital letters. -/
def capitalLetters : Text := "1E0*A".toList

/-- The product is the same in both cases. -/
theorem parse_smallLetters_eq_capitalLetters :
    Text.upperAscii smallLetters = Text.upperAscii capitalLetters ∧ ¬ NamesFile smallLetters ∧
      single.LogsApart ∧
      ∃ value provenance after after', after'.table = after.table ∧
        after'.counter = after.counter ∧
        Run.from? single (parse {} smallLetters) = (.ok (value, provenance), after) ∧
        Run.from? single (parse {} capitalLetters) = (.ok (value, provenance), after') := by
  have hcase : Text.upperAscii smallLetters = Text.upperAscii capitalLetters := by decide +kernel
  have hfile : ¬ NamesFile smallLetters := by decide +kernel
  have hlogs : single.LogsApart := nofun
  let scope : Scope Float Float :=
    ⟨{}, ⟨smallLetters, "1e0*#0#".toList, [("#0#".toList, "A".toList)]⟩⟩
  have hprepare : prepare smallLetters single.table.namesLongestFirst = .ok scope.prepared := by
    have hnames : single.table.namesLongestFirst = ["A".toList] :=
      List.mergeSort_of_pairwise (List.pairwise_singleton _ _)
    rw [hnames]
    decide +kernel
  have htext : scope.prepared.text = "1e0".toList ++ (Operator.multiply.sign ++ placeholder 0) :=
    rfl
  have htoken : IsToken "1e0".toList :=
    ⟨by decide, false, _, .plain (List.all_eq_true.mp (by decide +kernel)), rfl⟩
  have hsign : ¬ AwaitsSign "1e0".toList := by
    rw [← awaitsExponent_iff]
    decide
  have hnumber : (literal? "1e0".toList : Option Float) = some 1 := by decide +kernel
  have hfirst : Run.from? single (scope.resolveToken "1e0".toList) = _ :=
    resolveToken_eq_ok.mpr (.number hnumber)
  have hsecond : Run.from? { single with counter := 1 } (scope.resolveToken (placeholder 0)) =
      (.ok ⟨.constant { Constant.of (1 : Float) with slot := some 0 }, .constant, "A".toList⟩,
        { single with counter := 1 }) := rfl
  obtain ⟨hexists, -⟩ := parse_pair_eq_ok hprepare htext htoken hsign (isToken_placeholder 0)
    (by decide) hfirst hsecond rfl
  obtain ⟨provenance, after, hrun⟩ := hexists rfl
  obtain ⟨after', htable, hcounter, hrun'⟩ :=
    (parse_of_upperAscii_eq hcase hfile fun _ => hlogs).1 _ _ _ hrun
  exact ⟨hcase, hfile, hlogs, _, provenance, after, after', htable, hcounter, hrun, hrun'⟩

end Expression

end MapAlgebra
