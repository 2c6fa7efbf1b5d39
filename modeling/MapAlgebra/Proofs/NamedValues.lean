import MapAlgebra.Proofs.Calls
import MapAlgebra.Proofs.Replacement

/-!
# Values under names

While an expression is evaluated, its names go on standing for the same constants and grids: looking
one up only keeps it loaded. A call that is written with such names is prepared with their
placeholders, each of which yields the value of its name.
-/

namespace MapAlgebra

open Script (IsVariable)
open VariableTable (key)

variable {K V S : Type} [Coordinate K] [Number V] [Cell S V]

/-- A value that has its cells, if any. -/
def Operand.IsResident (value : Operand K V S) : Prop :=
  ∀ files, value.load files = .ok value

/-- A name is bound to a value, or to one that is loaded to it from files that no log record
changes. -/
def Session.Offers (session : Session K V S) (name : Text) (value : Operand K V S) : Prop :=
  ∃ binding, session.table.get? name = some binding ∧
    Expression.isNodataToken binding.name = false ∧
    (binding.value = value ∨
      session.logFile = none ∧ binding.value.load session.files = .ok value)

namespace Session.Offers

variable {session : Session K V S} {name : Text} {value other : Operand K V S}

theorem addRecord (h : session.Offers name value) (record : Record) :
    (session.addRecord record).Offers name value := by
  obtain ⟨binding, hbinding, hname, hvalue⟩ := h
  refine ⟨binding, by rw [Session.table_addRecord, hbinding], hname, ?_⟩
  rcases hvalue with hvalue | ⟨hlog, hload⟩
  · exact .inl hvalue
  · rw [Session.addRecord_of_logFile_eq_none hlog]
    exact .inr ⟨hlog, hload⟩

theorem exists_load (h : session.Offers name value) (hresident : value.IsResident) :
    ∃ binding, session.table.get? name = some binding ∧
      Expression.isNodataToken binding.name = false ∧
      binding.value.load session.files = .ok value := by
  obtain ⟨binding, hbinding, hname, hvalue | ⟨-, hload⟩⟩ := h
  · exact ⟨binding, hbinding, hname, by rw [hvalue, hresident]⟩
  · exact ⟨binding, hbinding, hname, hload⟩

/-- A value that is kept loaded takes the place of no other one. -/
theorem update (h : session.Offers name other)
    (hslots : value.slot.isSome → other.slot = value.slot → other = value) :
    ({ session with table := session.table.update value } : Session K V S).Offers name other := by
  obtain ⟨binding, hbinding, hname, hvalue⟩ := h
  have hfound := session.table.get?_update value name
  rw [hbinding, Option.map_some] at hfound
  have hslot : binding.value.slot = other.slot := by
    rcases hvalue with rfl | ⟨-, hload⟩
    · rfl
    · exact Operand.slot_of_load hload
  split at hfound
  next hsame =>
    have heq : other = value := hslots hsame.1 (hslot.symm.trans hsame.2)
    exact ⟨_, hfound, hname, .inl heq.symm⟩
  next => exact ⟨binding, hfound, hname, hvalue⟩

end Session.Offers

namespace Expression

/-- Names that stand for resident values. Values that are kept in one place are one value. -/
structure AreOffers (offers : List (Text × Operand K V S)) : Prop where
  resident : ∀ offer ∈ offers, offer.2.IsResident
  slots : ∀ offer ∈ offers, ∀ other ∈ offers, offer.2.slot.isSome →
    other.2.slot = offer.2.slot → other.2 = offer.2

/-- All names stand for their values. -/
def Offering (offers : List (Text × Operand K V S)) (session : Session K V S) : Prop :=
  ∀ offer ∈ offers, session.Offers offer.1 offer.2

theorem isSteady_offering (offers : List (Text × Operand K V S)) : IsSteady (Offering offers) where
  counter _ _ h := h
  record _ record h := fun offer hoffer => (h offer hoffer).addRecord record

section Preparing

variable {items : List Item} {function : Text} {inner : List Item}

/-- A character of the function or the arguments of a call, which is no blank and no parenthesis. -/
def IsInner (c : Char) : Prop :=
  c.toNat < 128 ∧ Text.isBlank c = false ∧ c ≠ '(' ∧ c ≠ ')'

/-- The items of a call. -/
def callItems (function : Text) (inner : List Item) : List Item :=
  .word function false :: .mark '(' :: (inner ++ [.mark ')'])

/-- A token in front of a character that opens no parenthesis is free. -/
theorem Proper.free {spelled : Text} (hspelled : IsWhole spelled) {c : Char}
    (hc : isTokenChar c = false) (hopen : c ≠ '(') (h : Proper items) :
    Proper (.word spelled true :: .mark c :: items) := by
  have hword := Proper.word hspelled (.mark hc h)
  rwa [(by simpa using hopen : (c != '(') = true)] at hword

theorem Proper.call (hfunction : IsWhole function) (h : Proper (inner ++ [.mark ')'])) :
    Proper (callItems function inner) :=
  Proper.word (c := '(') hfunction (.mark rfl h)

omit [Coordinate K] [Number V] [Cell S V] in
/-- A free token that spells a bound name is replaced by a placeholder that stands for the name. -/
theorem Filled.exists_placeholder {table : VariableTable K V S} {prepared : Prepared}
    (h : Filled items table.namesLongestFirst.zipIdx prepared) {name : Text}
    (hmem : .word name true ∈ items) (hbound : (table.get? name).isSome) :
    ∃ index bound, standIn table.namesLongestFirst.zipIdx name = placeholder index ∧
      prepared.name? (placeholder index) = some bound ∧ key bound = key name := by
  obtain ⟨token, htoken⟩ := Option.isSome_iff_exists.mp (isSome_placeholder?_iff.mpr hbound)
  obtain ⟨found, hfind, rfl⟩ := placeholder?_eq_some_iff.mp htoken
  refine ⟨found.2, found.1, ?_, h.name?_eq hmem hfind, key_eq_of_find? hfind⟩
  rw [standIn_eq, htoken]
  rfl

/-- Parentheses are counted, other characters are not. -/
theorem depthBehind_append {whole front : Text} (h : ∀ c ∈ front, c ≠ '(' ∧ c ≠ ')')
    (depth position : Nat) (rest : Text) : depthBehind whole depth position (front ++ rest) =
      depthBehind whole depth (position + front.length) rest := by
  induction front generalizing position with
  | nil => rfl
  | cons c front ih =>
      obtain ⟨hopen, hclose⟩ := h c List.mem_cons_self
      have hrest := ih (fun d hd => h d (List.mem_cons_of_mem _ hd)) (position + 1)
      rw [List.cons_append, depthBehind, hrest, List.length_cons, Nat.add_right_comm, Nat.add_assoc]
      · exact hopen
      · exact hclose

/-- A call is prepared by putting placeholders for the names in it. -/
theorem exists_prepare_call {names : List Text} (hnames : ∀ name ∈ names, IsVariable name)
    (hitems : Proper (callItems function inner)) (hfunction : ∀ c ∈ function, IsInner c)
    (hinner : ∀ c ∈ flat inner, IsInner c) :
    ∃ prepared, prepare (flat (callItems function inner)) names = .ok prepared ∧
      Filled (callItems function inner) names.zipIdx prepared := by
  have hflat : flat (callItems function inner) = function ++ '(' :: (flat inner ++ [')']) := by
    simp [flat, callItems, Item.text]
  have htext : ∀ c ∈ flat (callItems function inner), c.toNat < 128 ∧ Text.isBlank c = false := by
    rw [hflat, List.forall_mem_append, List.forall_mem_cons, List.forall_mem_append,
      List.forall_mem_singleton]
    exact ⟨fun c hc => ⟨(hfunction c hc).1, (hfunction c hc).2.1⟩, by decide,
      fun c hc => ⟨(hinner c hc).1, (hinner c hc).2.1⟩, by decide⟩
  have hsqueeze : Text.squeeze (flat (callItems function inner)) =
      flat (callItems function inner) := by
    apply List.filter_eq_self.mpr
    intro c hc
    simp [(htext c hc).2]
  have hparentheses : checkParentheses (flat (callItems function inner)) = .ok () := by
    unfold checkParentheses
    rw [hflat, depthBehind_append fun c hc => (hfunction c hc).2.2, depthBehind,
      depthBehind_append fun c hc => (hinner c hc).2.2]
    rfl
  let text := flat (callItems function inner)
  refine ⟨Prepared.substituteAll { source := text, text } names, ?_,
    filled_substituteAll hnames hitems fun c hc => (htext c hc).1⟩
  unfold prepare
  rw [hsqueeze]
  dsimp only
  rw [if_neg (by simp [hflat]), hparentheses]
  rfl

end Preparing

variable [Conversion K V]

/-- The placeholder of a name yields the value that the name stands for. -/
theorem AreOffers.yieldsTerm {offers : List (Text × Operand K V S)} (h : AreOffers offers)
    {scope : Scope K V} (hsettings : scope.settings.nodataAsValue = false) {name bound : Text}
    {value : Operand K V S} (hoffer : (name, value) ∈ offers) {index : Nat}
    (hbound : scope.prepared.name? (placeholder index) = some bound) (hkey : key bound = key name) :
    scope.YieldsTerm (Offering offers) (.token (placeholder index)) value := by
  intro depth session hsession
  obtain ⟨binding, hbinding, hname, hload⟩ :=
    (hsession _ hoffer).exists_load (h.resident _ hoffer)
  have hitem : session.table.item bound = .ok binding := by
    rw [VariableTable.item_eq_ok_iff, get?_congr hkey, hbinding]
  have hvalue : value = substituteNodata scope.settings value := by
    cases value <;> simp [substituteNodata, hsettings]
  refine ⟨_, _, .token (.name (literal?_placeholder index)
    (.variable hbound hitem hload hvalue) .plain), ⟨rfl, hname⟩, ?_⟩
  intro other hother
  exact (hsession other hother).update (h.slots _ hoffer other hother)

section Parsing

/-- The text of a call with its arguments. -/
def callText (function : Text) (arguments : List Text) : Text :=
  function ++ '(' :: ([','].intercalate arguments ++ [')'])

theorem Function.spec_name (function : Function) :
    ∀ c ∈ function.name.toList, isTokenChar c ∧ isPlain c ∧ IsInner c := by
  have hall : (function.name.toList.all fun c => isTokenChar c && isPlain c && c.toNat < 128 &&
      !Text.isBlank c && c != '(' && c != ')') = true := by cases function <;> rfl
  simpa [IsInner, and_assoc] using hall

theorem Function.name_ne_nil (function : Function) : function.name.toList ≠ [] := by
  cases function <;> exact List.cons_ne_nil _ _

theorem Function.ofName?_name (function : Function) :
    Function.ofName? function.name.toList = some function := by
  cases function <;> rfl

theorem isWhole_of_isVariable {name : Text} (h : IsVariable name) : IsWhole name :=
  ⟨h.nonempty, fun _ => isTokenChar_of_mem h⟩

theorem isInner_of_isVariable {name : Text} (h : IsVariable name) : ∀ c ∈ name, IsInner c := by
  intro c hc
  obtain ⟨hword, hblank, -⟩ := h.spec hc
  refine ⟨(h.word c hc).1, hblank, ?_, ?_⟩
  · rintro rfl
    revert hword
    decide
  · rintro rfl
    revert hword
    decide

theorem isInner_comma : IsInner ',' :=
  ⟨by decide, rfl, by decide, by decide⟩

theorem isInner_sign (op : Operator) : ∀ c ∈ op.sign, IsInner c := by
  have hall : (op.sign.all fun c =>
      c.toNat < 128 && !Text.isBlank c && c != '(' && c != ')') = true := by cases op <;> rfl
  simpa [IsInner, and_assoc] using hall

omit [Coordinate K] [Number V] [Cell S V] [Conversion K V] in
theorem isVariable_namesLongestFirst {table : VariableTable K V S}
    (h : ∀ binding ∈ table.bindings, IsVariable binding.name) :
    ∀ name ∈ table.namesLongestFirst, IsVariable name := by
  intro name hname
  obtain ⟨binding, hbinding, rfl⟩ := mem_namesLongestFirst.mp hname
  exact h binding hbinding

variable {offers : List (Text × Operand K V S)} {session : Session K V S}

/-- A name in an expression gives way to a placeholder that yields its value. -/
theorem AreOffers.exists_yieldsTerm (h : AreOffers offers) (hsession : Offering offers session)
    {items : List Item} {prepared : Prepared}
    (hfilled : Filled items session.table.namesLongestFirst.zipIdx prepared) {name : Text}
    {value : Operand K V S} (hoffer : (name, value) ∈ offers) (hmem : .word name true ∈ items) :
    ∃ index, standIn session.table.namesLongestFirst.zipIdx name = placeholder index ∧
      (⟨{}, prepared⟩ : Scope K V).YieldsTerm (Offering offers) (.token (placeholder index))
        value := by
  obtain ⟨binding, hbinding, -⟩ := hsession _ hoffer
  obtain ⟨index, bound, hstand, hname, hkey⟩ :=
    hfilled.exists_placeholder hmem (by rw [hbinding]; rfl)
  exact ⟨index, hstand, h.yieldsTerm rfl hoffer hname hkey⟩

/-- A call is evaluated if its arguments, with placeholders for the names in them, yield values. -/
theorem Offering.exists_parse_call (hsession : Offering offers session)
    (hnames : ∀ binding ∈ session.table.bindings, IsVariable binding.name) {function : Function}
    {inner : List Item} {values : List (Operand K V S)} {value : Operand K V S}
    (hproper : Proper (inner ++ [.mark ')']))
    (hchars : ∀ c ∈ flat inner, IsInner c)
    (hcompute : ∀ prepared parts, List.Forall₂ Part.Shows parts values →
      Traced.Succeeds (· = value) (function.compute none prepared parts))
    (hcount : function.admits values.length)
    (harguments : ∀ prepared, Filled (callItems function.name.toList inner)
        session.table.namesLongestFirst.zipIdx prepared →
      ∃ arguments, arguments.nesting = 0 ∧
        arguments.Spells (flat (inner.map (Item.fill
          (standIn session.table.namesLongestFirst.zipIdx)))) ∧
        (⟨{}, prepared⟩ : Scope K V).YieldsAll (Offering offers) arguments values) :
    ∃ provenance after, Run.from? session
        (parse {} (function.name.toList ++ '(' :: (flat inner ++ [')']))) =
      (.ok (value, provenance), after) := by
  have hfunction : IsWhole function.name.toList :=
    ⟨function.name_ne_nil, fun c hc => (function.spec_name c hc).1⟩
  obtain ⟨prepared, hprepare, hfilled⟩ := exists_prepare_call
    (isVariable_namesLongestFirst hnames) (hproper.call hfunction)
    (fun c hc => (function.spec_name c hc).2.2) hchars
  obtain ⟨arguments, hnesting, hspells, hyields⟩ := harguments prepared hfilled
  have hsteady := isSteady_offering offers
  have hcall := hyields.call function.ofName?_name hcount hsteady rfl (hcompute prepared)
  have htext : prepared.text = minus false ++ (function.name.toList ++ '(' ::
      (flat (inner.map (Item.fill (standIn session.table.namesLongestFirst.zipIdx))) ++ [')'])) := by
    rw [hfilled.text]
    simp [callItems, Item.fill, Item.text, flat, minus]
  obtain ⟨provenance, after, hparse, -⟩ :=
    (hcall.last hsteady).exists_parse_eq_ok hsession hprepare
      (htext ▸ .last (.call function.name_ne_nil
        (.plain fun c hc => (function.spec_name c hc).2.1) hspells))
      (by simp [Chain.nesting, Term.nesting, hnesting])
  refine ⟨provenance, after, ?_⟩
  have hsource : function.name.toList ++ '(' :: (flat inner ++ [')']) =
      flat (callItems function.name.toList inner) := by
    simp [callItems, flat, Item.text]
  rw [hsource, hparse]

/-- A call with two names computes its function for their values. -/
theorem AreOffers.exists_parse_pair (h : AreOffers offers) (hsession : Offering offers session)
    (hnames : ∀ binding ∈ session.table.bindings, IsVariable binding.name) {a b : Text}
    {first second value : Operand K V S} (ha : (a, first) ∈ offers) (hb : (b, second) ∈ offers)
    (hva : IsVariable a) (hvb : IsVariable b) {function : Function} (hcount : function.admits 2)
    (hcompute : ∀ prepared parts, List.Forall₂ Part.Shows parts [first, second] →
      Traced.Succeeds (· = value) (function.compute none prepared parts)) :
    ∃ provenance after, Run.from? session (parse {} (callText function.name.toList [a, b])) =
      (.ok (value, provenance), after) := by
  let inner : List Item := [.word a true, .mark ',', .word b true]
  have hproper : Proper (inner ++ [.mark ')']) :=
    .free (isWhole_of_isVariable hva) rfl (by decide)
      (.free (isWhole_of_isVariable hvb) rfl (by decide) .nil)
  have hinner : flat inner = a ++ ',' :: b := by
    simp [inner, flat, Item.text]
  have hchars : ∀ c ∈ flat inner, IsInner c := by
    rw [hinner, List.forall_mem_append, List.forall_mem_cons]
    exact ⟨isInner_of_isVariable hva, isInner_comma, isInner_of_isVariable hvb⟩
  have hsource : callText function.name.toList [a, b] =
      function.name.toList ++ '(' :: (flat inner ++ [')']) := by
    simp [callText, hinner, List.intercalate]
  rw [hsource]
  refine hsession.exists_parse_call hnames hproper hchars hcompute hcount ?_
  intro prepared hfilled
  obtain ⟨i, hi, hfirst⟩ := h.exists_yieldsTerm hsession hfilled ha (by simp [callItems, inner])
  obtain ⟨j, hj, hsecond⟩ := h.exists_yieldsTerm hsession hfilled hb (by simp [callItems, inner])
  have hsteady := isSteady_offering offers
  have htext : flat (inner.map (Item.fill (standIn session.table.namesLongestFirst.zipIdx))) =
      placeholder i ++ ',' :: placeholder j := by
    simp [inner, Item.fill, Item.text, flat, hi, hj]
  refine ⟨.more (.last (.token (placeholder i))) (.more (.last (.token (placeholder j))) .none),
    rfl, ?_, (hfirst.last hsteady).more ((hsecond.last hsteady).more Scope.yieldsAll_none)⟩
  rw [htext]
  exact .more (.last (.token (isToken_placeholder i)))
    (.last (.last (.token (isToken_placeholder j))))

/-- A choice by two names that are compared, between two others, is computed for what they are
combined to and the values of the others. -/
theorem AreOffers.exists_parse_choice (h : AreOffers offers) (hsession : Offering offers session)
    (hnames : ∀ binding ∈ session.table.bindings, IsVariable binding.name) {a b x y : Text}
    {first second yes no condition value : Operand K V S} {op : Operator}
    (ha : (a, first) ∈ offers) (hb : (b, second) ∈ offers) (hx : (x, yes) ∈ offers)
    (hy : (y, no) ∈ offers) (hva : IsVariable a) (hvb : IsVariable b) (hvx : IsVariable x)
    (hvy : IsVariable y)
    (hcombine : ∀ (scope : Scope K V) (left right : Part K V S), scope.settings.extent = none →
      left.Shows first → right.Shows second →
        Traced.Succeeds (· = condition) (scope.combine left op right))
    (hcompute : ∀ prepared parts, List.Forall₂ Part.Shows parts [condition, yes, no] →
      Traced.Succeeds (· = value) (Function.ifThenElse.compute none prepared parts)) :
    ∃ provenance after, Run.from? session
        (parse {} (callText Function.ifThenElse.name.toList [a ++ (op.sign ++ b), x, y])) =
      (.ok (value, provenance), after) := by
  let inner : List Item := .word a true :: (op.sign.map .mark ++
    [.word b true, .mark ',', .word x true, .mark ',', .word y true])
  have hbehind : Proper [.word b true, .mark ',', .word x true, .mark ',', .word y true,
      .mark ')'] :=
    .free (isWhole_of_isVariable hvb) rfl (by decide)
      (.free (isWhole_of_isVariable hvx) rfl (by decide)
        (.free (isWhole_of_isVariable hvy) rfl (by decide) .nil))
  have hproper : Proper (inner ++ [.mark ')']) := by
    cases op <;>
      first
        | exact .free (isWhole_of_isVariable hva) rfl (by decide) hbehind
        | exact .free (isWhole_of_isVariable hva) rfl (by decide) (.mark rfl hbehind)
  have hinner : flat inner = a ++ (op.sign ++ (b ++ ',' :: (x ++ ',' :: y))) := by
    simp [inner, flat, Item.text, List.flatMap_map]
  have hchars : ∀ c ∈ flat inner, IsInner c := by
    simp only [hinner, List.forall_mem_append, List.forall_mem_cons]
    exact ⟨isInner_of_isVariable hva, isInner_sign op, isInner_of_isVariable hvb, isInner_comma,
      isInner_of_isVariable hvx, isInner_comma, isInner_of_isVariable hvy⟩
  have hsource : callText Function.ifThenElse.name.toList [a ++ (op.sign ++ b), x, y] =
      Function.ifThenElse.name.toList ++ '(' :: (flat inner ++ [')']) := by
    simp [callText, hinner, List.intercalate]
  rw [hsource]
  refine hsession.exists_parse_call hnames hproper hchars hcompute rfl ?_
  intro prepared hfilled
  obtain ⟨i, hi, hfirst⟩ := h.exists_yieldsTerm hsession hfilled ha (by simp [callItems, inner])
  obtain ⟨j, hj, hsecond⟩ := h.exists_yieldsTerm hsession hfilled hb (by simp [callItems, inner])
  obtain ⟨k, hk, hyes⟩ := h.exists_yieldsTerm hsession hfilled hx (by simp [callItems, inner])
  obtain ⟨l, hl, hno⟩ := h.exists_yieldsTerm hsession hfilled hy (by simp [callItems, inner])
  have hsteady := isSteady_offering offers
  have hcondition := hfirst.join hsecond hsteady rfl fun left right => hcombine _ left right rfl
  have htext : flat (inner.map (Item.fill (standIn session.table.namesLongestFirst.zipIdx))) =
      (placeholder i ++ (op.sign ++ placeholder j)) ++ ',' ::
        (placeholder k ++ ',' :: placeholder l) := by
    simp [inner, Item.fill, Item.text, flat, hi, hj, hk, hl, List.flatMap_map]
  have hcompared : (Chain.join (.token (placeholder i)) op (.last (.token (placeholder j)))).Spells
      (placeholder i ++ (op.sign ++ placeholder j)) :=
    .join (.token (isToken_placeholder i))
      (fun hawaits => absurd hawaits (not_awaitsSign_placeholder i))
      (.last (.token (isToken_placeholder j)))
  refine ⟨.more _ (.more (.last (.token (placeholder k))) (.more (.last (.token (placeholder l)))
    .none)), ?_, ?_, hcondition.more ((hyes.last hsteady).more ((hno.last hsteady).more
      Scope.yieldsAll_none))⟩
  · simp [Chain.nesting, Term.nesting, Arguments.nesting]
  · rw [htext]
    exact .more hcompared (.more (.last (.token (isToken_placeholder k)))
      (.last (.last (.token (isToken_placeholder l)))))

end Parsing

end Expression

end MapAlgebra
