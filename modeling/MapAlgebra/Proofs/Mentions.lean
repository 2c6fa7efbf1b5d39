import MapAlgebra.Proofs.Lookups
import MapAlgebra.Proofs.Substitutes

/-!
# The variables that an expression mentions

An expression is evaluated alike over two tables of variables that have the same values under the
names it mentions. The other variables only shift the numbers of the placeholders, and nothing that
comes of an expression tells them, as long as no placeholder gets into the name of a file.
-/

namespace MapAlgebra

open Expression

variable {K V S : Type}

namespace VariableTable

/-- Where the value of a name is kept. -/
def slot? (table : VariableTable K V S) (name : Text) : Option Nat :=
  (table.get? name).bind fun binding => binding.value.slot

/-- Two names of a value that is kept once. -/
def Share (table : VariableTable K V S) (name other : Text) : Prop :=
  ∃ slot, table.slot? name = some slot ∧ table.slot? other = some slot

/-- Two tables have the same values under some names, spelled the same: what is one value in the one
table is one in the other. -/
structure Agree (names : List Text) (table table' : VariableTable K V S) : Prop where
  bound : ∀ name ∈ names, Option.Rel
    (fun binding binding' => binding'.name = binding.name ∧
      binding'.value.unkept = binding.value.unkept) (table.get? name) (table'.get? name)
  shared : ∀ name ∈ names, ∀ other ∈ names, table.Share name other ↔ table'.Share name other

theorem get?_of_key_eq (table : VariableTable K V S) {name other : Text}
    (h : key name = key other) : table.get? name = table.get? other := by
  unfold get?
  rw [h]

theorem slot?_update (table : VariableTable K V S) (value : Operand K V S) (name : Text) :
    (table.update value).slot? name = table.slot? name := by
  unfold slot?
  rw [get?_update]
  cases table.get? name with
  | none => rfl
  | some binding =>
      rw [Option.map_some, Option.bind_some, Option.bind_some]
      split
      next hsame => exact hsame.2.symm
      next => rfl

/-- A name shares the value of another when its value is kept at the same place. -/
theorem share_iff {table : VariableTable K V S} {value : Operand K V S} {name other : Text}
    {binding : Binding K V S} (hslot : table.slot? name = value.slot)
    (hother : table.get? other = some binding) : table.Share name other ↔
      value.slot.isSome ∧ binding.value.slot = value.slot := by
  unfold Share
  rw [hslot]
  unfold slot?
  rw [hother, Option.bind_some, Option.isSome_iff_exists]
  constructor
  · rintro ⟨slot, hvalue, hbinding⟩
    exact ⟨⟨slot, hvalue⟩, hbinding.trans hvalue.symm⟩
  · rintro ⟨⟨slot, hvalue⟩, hbinding⟩
    exact ⟨slot, hvalue, hbinding.trans hvalue⟩

/-- The same change of a value in two tables. -/
theorem Agree.update {names : List Text} {table table' : VariableTable K V S}
    (h : table.Agree names table') {name : Text} (hname : name ∈ names)
    {value value' : Operand K V S} (hslot : table.slot? name = value.slot)
    (hslot' : table'.slot? name = value'.slot) (hvalue : value'.unkept = value.unkept) :
    (table.update value).Agree names (table'.update value') := by
  constructor
  · intro other hother
    have hbound := h.bound other hother
    have hshared := h.shared name hname other hother
    rw [get?_update, get?_update]
    cases hfound : table.get? other with
    | none =>
        rw [hfound] at hbound
        generalize table'.get? other = found at hbound ⊢
        cases hbound
        exact .none
    | some binding =>
        rw [hfound] at hbound
        cases hfound' : table'.get? other with
        | none =>
            rw [hfound'] at hbound
            cases hbound
        | some binding' =>
            rw [hfound'] at hbound
            obtain ⟨hspelled, hsame⟩ := Option.rel_some_some.mp hbound
            rw [share_iff hslot hfound, share_iff hslot' hfound'] at hshared
            refine .some ?_
            dsimp only
            by_cases hkept : value.slot.isSome ∧ binding.value.slot = value.slot
            · rw [if_pos hkept, if_pos (hshared.mp hkept)]
              exact ⟨hspelled, hvalue⟩
            · rw [if_neg hkept, if_neg (mt hshared.mpr hkept)]
              exact ⟨hspelled, hsame⟩
  · intro first hfirst second hsecond
    unfold Share
    simp only [slot?_update]
    exact h.shared first hfirst second hsecond

theorem name_mem_update {table : VariableTable K V S} {value : Operand K V S}
    {binding : Binding K V S} (h : binding ∈ (table.update value).bindings) :
    ∃ old ∈ table.bindings, binding.name = old.name := by
  unfold update at h
  split at h
  next => exact ⟨binding, h, rfl⟩
  next =>
    obtain ⟨old, hold, rfl⟩ := List.mem_map.mp h
    refine ⟨old, hold, ?_⟩
    split <;> rfl

end VariableTable

/-- Two tables that differ in variables with other names at most. No name has the mark of
placeholders in it. -/
structure VariableTable.Mirrors (names : List Text) (table table' : VariableTable K V S) :
    Prop where
  agree : table.Agree names table'
  plain : ∀ binding ∈ table.bindings, '#' ∉ binding.name

namespace VariableTable.Mirrors

variable {names : List Text} {table table' : VariableTable K V S}

theorem update (h : table.Mirrors names table') {name : Text} (hname : name ∈ names)
    {value value' : Operand K V S} (hslot : table.slot? name = value.slot)
    (hslot' : table'.slot? name = value'.slot) (hvalue : value'.unkept = value.unkept) :
    (table.update value).Mirrors names (table'.update value') := by
  refine ⟨h.agree.update hname hslot hslot' hvalue, fun binding hbinding => ?_⟩
  obtain ⟨old, hold, hsame⟩ := name_mem_update hbinding
  exact hsame ▸ h.plain old hold

/-- Names that spell one token find bindings that are the same up to where their value is kept. -/
theorem item (h : table.Mirrors names table') {token name name' : Text} (htoken : token ∈ names)
    (hname : key name = key token) (hname' : key name' = key token) :
    Matching (fun binding binding' => table.get? token = some binding ∧
      table'.get? token = some binding' ∧ binding'.name = binding.name ∧ '#' ∉ binding.name ∧
        binding'.value.unkept = binding.value.unkept) (table.item name) (table'.item name') := by
  have hbound := h.agree.bound token htoken
  unfold VariableTable.item
  rw [table.get?_of_key_eq hname, table'.get?_of_key_eq hname']
  cases hfound : table.get? token with
  | none =>
      rw [hfound] at hbound
      generalize table'.get? token = found' at hbound ⊢
      cases hbound
      exact .error rfl
  | some binding =>
      have hplain := h.plain _ (mem_of_get?_eq_some hfound).1
      rw [hfound] at hbound
      generalize table'.get? token = found' at hbound ⊢
      cases hbound with
      | some hsame => exact .ok ⟨rfl, rfl, hsame.1, hplain, hsame.2⟩

theorem slot?_eq {name : Text} {binding : Binding K V S} (h : table.get? name = some binding) :
    table.slot? name = binding.value.slot := by
  unfold slot?
  rw [h, Option.bind_some]

/-- Names that spell one token are read alike. -/
theorem readAlike (h : table.Mirrors names table') {token name name' : Text}
    (htoken : token ∈ names) (hname : key name = key token) (hname' : key name' = key token) :
    Matching (Binding.ReadAlike (Mirrors names) table table') (table.item name)
      (table'.item name') := by
  refine (h.item htoken hname hname').mono fun binding binding' hbound => ?_
  obtain ⟨hbinding, hbinding', hspelled, hplain, hsame⟩ := hbound
  refine ⟨hspelled, hplain, hsame, fun value value' hslot hslot' => ?_⟩
  exact h.update htoken ((slot?_eq hbinding).trans hslot.symm)
    ((slot?_eq hbinding').trans hslot'.symm)

end VariableTable.Mirrors

theorem Run.exists_eq_ok_of_isSome {α : Type} {session : Session K V S} {step : Run K V S α}
    (h : (Run.from? session step).1.toOption.isSome) :
    ∃ a after, Run.from? session step = (.ok a, after) := by
  rcases hrun : Run.from? session step with ⟨fault | a, after⟩
  · rw [hrun] at h
    cases h
  · exact ⟨a, after, rfl⟩

namespace Expression

section Evaluation

variable [Coordinate K] [Number V] [Cell S V] {s t : Session K V S}

/-- Tables with the same values under the names of an expression look its names up alike. -/
theorem looksUp_of_mirrors {heed : Fault → Prop} {settings : Settings K V} {source : Text}
    {prepared prepared' : Prepared}
    (hbound : ∀ token ∈ wholeTokens (Text.squeeze source),
      (s.table.get? token).isSome → (t.table.get? token).isSome) :
    LooksUp (S := S) (VariableTable.Mirrors (wholeTokens (Text.squeeze source))) heed source
      s.table.namesLongestFirst t.table.namesLongestFirst ⟨settings, prepared⟩
      ⟨settings, prepared'⟩ where
  both hst htoken _ hname hname' :=
    agree_readVariable rfl hst (hst.related.readAlike htoken hname hname')
  first htoken hmem hname hnone := by
    have hsome := hbound _ htoken (exists_mem_namesLongestFirst.mp ⟨_, hmem, hname⟩)
    obtain ⟨name', hmem', hname'⟩ := exists_mem_namesLongestFirst.mpr hsome
    exact absurd hname' (hnone name' hmem')

/-- An expression does not depend on variables that it does not mention. Over two tables that agree
on the names that occur in it as whole tokens it has the same value, at the same cost in numbers, or
fails in the same way. No name may have been replaced in the name of a file. -/
theorem parse_of_agree [Conversion K V] {settings : Settings K V} {source : Text}
    (hsource : ∀ c ∈ source, c.toNat < 128 ∧ c ≠ '#')
    (hnames : ∀ binding ∈ s.table.bindings, Script.IsVariable binding.name)
    (hnames' : ∀ binding ∈ t.table.bindings, Script.IsVariable binding.name)
    (hsame : t = { s with table := t.table })
    (hagree : s.table.Agree (wholeTokens (Text.squeeze source)) t.table)
    (hfiles : KeepsFileNames s.table.namesLongestFirst source) :
    (∀ value provenance after,
      Run.from? s (parse settings source) = (.ok (value, provenance), after) →
        ∃ value' table, value'.unkept = value.unkept ∧
          Run.from? t (parse settings source) =
            (.ok (value', provenance), { after with table })) ∧
    ∀ fault after, Run.from? s (parse settings source) = (.error fault, after) →
      ∃ fault' table, fault'.kind = fault.kind ∧
        Run.from? t (parse settings source) = (.error fault', { after with table }) := by
  have hst : s.Over (VariableTable.Mirrors (wholeTokens (Text.squeeze source))) t := by
    rw [hsame]
    refine .intro ⟨hagree, fun binding hbinding => ?_⟩
    exact mark_not_mem_of_isVariable (hnames binding hbinding)
  have hbound : ∀ token ∈ wholeTokens (Text.squeeze source),
      (s.table.get? token).isSome ↔ (t.table.get? token).isSome := by
    intro token htoken
    have hbound := hagree.bound token htoken
    generalize s.table.get? token = found, t.table.get? token = found' at hbound
    cases hbound with
    | none => exact Iff.rfl
    | some => exact Iff.rfl
  exact outcomes_parse (fun c hc => hsource c (List.mem_of_mem_filter hc)) hnames hnames'
    (fun token htoken => (hbound token htoken).mpr) hfiles
    (fun _ _ => looksUp_of_mirrors fun token htoken => (hbound token htoken).mp) hst

end Evaluation

/-- The number one under a name. -/
def one (name : Text) : Binding Float Float Float32 where
  name := name
  value := .constant (.of 1)
  provenance := .constant

/-- A file with the mark of placeholders in its name. -/
def markedFile : FileTree where
  current := []
  entries := [("#0#$B.idf".toList :: [], .file (Idf.encode Script.five (.fill 1 1 5)).1)]

/-- One variable. -/
def single : Session Float Float Float32 where
  files := markedFile
  table := VariableTable.bind {} (one "A".toList)

/-- The same variable behind one with a longer name. -/
def crowded : Session Float Float Float32 where
  files := markedFile
  table := (VariableTable.bind {} (one "LONG".toList)).bind (one "A".toList)

theorem agree_crowded {names : List Text}
    (h : ∀ name ∈ names, VariableTable.key name ≠ "LONG".toList) :
    single.table.Agree names crowded.table := by
  let kept (slot : Nat) : Binding Float Float Float32 :=
    { one "A".toList with value := (one "A".toList).value.atSlot slot }
  have hsingle (name : Text) : single.table.get? name =
      if "A".toList = VariableTable.key name then some (kept 0) else none := by
    have hbindings : single.table.bindings = [kept 0] := rfl
    have hkey : VariableTable.key (kept 0).name = "A".toList := by decide +kernel
    unfold VariableTable.get?
    rw [hbindings, List.find?_singleton, hkey]
    simp only [beq_iff_eq]
  have hcrowded {name : Text} (hname : VariableTable.key name ≠ "LONG".toList) :
      crowded.table.get? name =
        if "A".toList = VariableTable.key name then some (kept 1) else none := by
    let long : Binding Float Float Float32 :=
      { one "LONG".toList with value := (one "LONG".toList).value.atSlot 0 }
    have hbindings : crowded.table.bindings = [long, kept 1] := rfl
    have hlong : VariableTable.key long.name = "LONG".toList := by decide +kernel
    have hkey : VariableTable.key (kept 1).name = "A".toList := by decide +kernel
    unfold VariableTable.get?
    rw [hbindings, List.find?_cons_of_neg (by simpa [hlong] using hname.symm),
      List.find?_singleton, hkey]
    simp only [beq_iff_eq]
  constructor
  · intro name hname
    rw [hsingle, hcrowded (h name hname)]
    split
    next => exact .some ⟨rfl, rfl⟩
    next => exact .none
  · intro name hname other hother
    unfold VariableTable.Share VariableTable.slot?
    rw [hsingle, hsingle, hcrowded (h name hname), hcrowded (h other hother)]
    split
    next => split <;> simp [kept, one, Operand.slot, Operand.atSlot]
    next => simp

theorem plain_of_all {text : Text} (h : text.all fun c => c.toNat < 128 && c != '#') :
    ∀ c ∈ text, c.toNat < 128 ∧ c ≠ '#' := by
  simpa using h

/-- The product of the variable with itself. -/
def square : Text := "A*A".toList

/-- The product is the same for both tables. -/
theorem parse_of_agree_crowded :
    (∀ c ∈ square, c.toNat < 128 ∧ c ≠ '#') ∧
    (∀ binding ∈ single.table.bindings, Script.IsVariable binding.name) ∧
    (∀ binding ∈ crowded.table.bindings, Script.IsVariable binding.name) ∧
    crowded = { single with table := crowded.table } ∧
    single.table.Agree (wholeTokens (Text.squeeze square)) crowded.table ∧
    KeepsFileNames single.table.namesLongestFirst square ∧
    ∃ value provenance after value' table, value'.unkept = value.unkept ∧
      Run.from? single (parse {} square) = (.ok (value, provenance), after) ∧
      Run.from? crowded (parse {} square) = (.ok (value', provenance), { after with table }) := by
  have hsource : ∀ c ∈ square, c.toNat < 128 ∧ c ≠ '#' := plain_of_all (by decide +kernel)
  have hnames : ∀ binding ∈ single.table.bindings, Script.IsVariable binding.name := by
    decide +kernel
  have hnames' : ∀ binding ∈ crowded.table.bindings, Script.IsVariable binding.name := by
    decide +kernel
  have hagree : single.table.Agree (wholeTokens (Text.squeeze square)) crowded.table :=
    agree_crowded (by decide +kernel)
  let scope : Scope Float Float := ⟨{}, ⟨square, "#0#*#0#".toList, [("#0#".toList, "A".toList)]⟩⟩
  have hprepare : prepare square single.table.namesLongestFirst = .ok scope.prepared := by
    decide +kernel
  have htext : scope.prepared.text = placeholder 0 ++ (Operator.multiply.sign ++ placeholder 0) :=
    rfl
  have hspells : (Chain.join (.token "#0#".toList) .multiply (.last (.token "#0#".toList))).Spells
      scope.prepared.text :=
    .join (.token (isToken_placeholder 0))
      (fun hawaits => absurd hawaits (not_awaitsSign_placeholder 0))
      (.last (.token (isToken_placeholder 0)))
  have hfiles : KeepsFileNames single.table.namesLongestFirst square := by
    intro prepared hprepared
    cases hprepare.symm.trans hprepared
    rw [← hspells.eq_readChain]
    decide
  have hlookup (counter : Nat) :
      Run.from? { single with counter } (scope.resolveToken "#0#".toList) =
        (.ok ⟨.constant { Constant.of (1 : Float) with slot := some 0 }, .constant, "A".toList⟩,
          { single with counter }) := rfl
  obtain ⟨hexists, -⟩ := parse_pair_eq_ok hprepare htext (isToken_placeholder 0)
    (not_awaitsSign_placeholder 0) (isToken_placeholder 0) (by decide) (hlookup 0) (hlookup 1) rfl
  obtain ⟨provenance, after, hrun⟩ := hexists rfl
  obtain ⟨value', table, hvalue, hrun'⟩ :=
    (parse_of_agree hsource hnames hnames' rfl hagree hfiles).1 _ _ _ hrun
  exact ⟨hsource, hnames, hnames', rfl, hagree, hfiles, _, provenance, after, value', table, hvalue,
    hrun, hrun'⟩

/-- An expression of one token is what the token stands for, and takes one number. -/
theorem from?_parse_token [Coordinate K] [Number V] [Cell S V] [Conversion K V]
    {settings : Settings K V} {source : Text} {session : Session K V S} {prepared : Prepared}
    (hprepare : prepare source session.table.namesLongestFirst = .ok prepared)
    (htoken : IsToken prepared.text) (hdepth : 0 ≤ settings.maxDepth) :
    Run.from? session (parse settings source) =
      match Run.from? session ((⟨settings, prepared⟩ : Scope K V).resolveToken prepared.text) with
      | (.ok part, after) =>
          (.ok (part.value, if part.value.isConstant then .constant else part.provenance),
            { after with counter := after.counter + 1 })
      | (.error fault, after) => (.error fault, after) := by
  let scope : Scope K V := ⟨settings, prepared⟩
  have hspells : (Chain.last (.token prepared.text)).Spells prepared.text := .last (.token htoken)
  rw [from?_parse_of_spells hprepare hspells hdepth]
  simp only [Scope.evaluateLinks, Scope.evaluateTerm, bind_assoc, pure_bind]
  rw [Run.from?_bind]
  rcases Run.from? session (scope.resolveToken prepared.text) with ⟨fault | part, after⟩
  · rfl
  · dsimp only
    have hlink : Run.from? after (Scope.link 0 none part) =
        (.ok ⟨part, none, expressionId (after.counter + 1), 0⟩,
          { after with counter := after.counter + 1 }) := link_eq_ok.mpr ⟨rfl, rfl⟩
    rw [Run.from?_bind, hlink]
    dsimp only
    rw [scope.merge_single rfl, pure_bind]
    rfl

/-- The text of the variable with a file name behind it, without an operator between them. -/
def besideName : Text := "A$B.idf".toList

/-- The placeholder of the variable gets into the name of the file, so that the number of other
variables decides which file is read. -/
theorem parse_besideName_differs :
    (∀ c ∈ besideName, c.toNat < 128 ∧ c ≠ '#') ∧
    (∀ binding ∈ single.table.bindings, Script.IsVariable binding.name) ∧
    (∀ binding ∈ crowded.table.bindings, Script.IsVariable binding.name) ∧
    crowded = { single with table := crowded.table } ∧
    single.table.Agree (wholeTokens (Text.squeeze besideName)) crowded.table ∧
    (∃ value provenance after,
      Run.from? single (parse {} besideName) = (.ok (value, provenance), after)) ∧
    ∃ after, Run.from? crowded (parse {} besideName) =
      (.error (.missingFile "#1#$B.idf".toList), after) := by
  let inside (text name : Text) : Prepared := ⟨besideName, text, [(name, "A".toList)]⟩
  have hnames : crowded.table.namesLongestFirst = ["LONG".toList, "A".toList] :=
    List.mergeSort_of_pairwise (by decide +kernel)
  have hprepare : prepare besideName single.table.namesLongestFirst =
      .ok (inside "#0#$B.idf".toList "#0#".toList) := by decide +kernel
  have hprepare' : prepare besideName crowded.table.namesLongestFirst =
      .ok (inside "#1#$B.idf".toList "#1#".toList) := by
    rw [hnames]
    decide +kernel
  have htoken {text : Text} (h : text.all isPlain) (hne : text ≠ []) : IsToken text :=
    ⟨hne, false, text, .plain (List.all_eq_true.mp h), rfl⟩
  have hdepth : 0 ≤ ({} : Settings Float Float).maxDepth := by decide
  have hread := from?_parse_token hprepare
    (htoken (by decide +kernel) (List.cons_ne_nil _ _)) hdepth
  have hread' := from?_parse_token hprepare'
    (htoken (by decide +kernel) (List.cons_ne_nil _ _)) hdepth
  refine ⟨plain_of_all (by decide +kernel), by decide +kernel, by decide +kernel, rfl,
    agree_crowded (by decide +kernel), ?_, ?_⟩
  · have hok : (Run.from? single ((⟨{}, inside "#0#$B.idf".toList "#0#".toList⟩ :
        Scope Float Float).resolveToken
          (inside "#0#$B.idf".toList "#0#".toList).text)).1.toOption.isSome := by decide +kernel
    obtain ⟨part, after, hpart⟩ := Run.exists_eq_ok_of_isSome hok
    rw [hpart] at hread
    exact ⟨_, _, _, hread⟩
  · refine ⟨crowded, hread'.trans ?_⟩
    rfl

end Expression

end MapAlgebra
