import MapAlgebra.Proofs.Marks
import MapAlgebra.Proofs.Rereading
import MapAlgebra.Proofs.Twins
import MapAlgebra.Proofs.Words

/-!
# Names looked up in two tables

An expression is prepared and evaluated over two tables of variables. Nothing but the reading of
variables tells the tables apart, so the two evaluations agree as soon as names that one token
spells are read alike and every token that only the first table has a name for is the keyword for no
data, which that table takes for what it is without a table.
-/

namespace MapAlgebra

open Expression

variable {K V S : Type} {P : VariableTable K V S → VariableTable K V S → Prop}

/-- Two sessions that differ in their tables at most, which are related. -/
inductive Session.Over (P : VariableTable K V S → VariableTable K V S → Prop) :
    Session K V S → Session K V S → Prop
  | intro {session : Session K V S} {table : VariableTable K V S} (h : P session.table table) :
      Over P session { session with table }

namespace Session.Over

variable {s t : Session K V S}

theorem related (h : s.Over P t) : P s.table t.table := by
  cases h
  assumption

theorem files_eq (h : s.Over P t) : t.files = s.files := by
  cases h
  rfl

theorem counter_eq (h : s.Over P t) : t.counter = s.counter := by
  cases h
  rfl

theorem eq (h : s.Over P t) : t = { s with table := t.table } := by
  cases h
  rfl

theorem withFiles (h : s.Over P t) (files : FileTree) :
    Over P { s with files } { t with files } := by
  obtain ⟨h⟩ := h
  exact .intro h

theorem withCounter (h : s.Over P t) (counter : Nat) :
    Over P { s with counter } { t with counter } := by
  obtain ⟨h⟩ := h
  exact .intro h

theorem withTables (h : s.Over P t) {table table' : VariableTable K V S}
    (htables : P table table') :
    Over P { s with table } { t with table := table' } := by
  cases h
  exact .intro htables

theorem addRecord (h : s.Over P t) (record : Record) :
    Over P (s.addRecord record) (t.addRecord record) := by
  cases h with
  | @intro table h =>
      have hsame : Session.addRecord { s with table } record =
          { s.addRecord record with table } := by
        unfold Session.addRecord
        dsimp only
        split
        next => rfl
        next => split <;> rfl
      rw [hsame]
      refine .intro ?_
      rw [table_addRecord]
      exact h

end Session.Over

namespace Expression

/-- In no file name of the prepared expression a name has been replaced. -/
def KeepsFileNames (names : List Text) (source : Text) : Prop :=
  ∀ prepared, prepare source names = .ok prepared →
    ∀ token ∈ (readChain [] prepared.text).1.tokens,
      Text.endsCaseless idfSuffix token → '#' ∉ token

theorem mem_namesLongestFirst {table : VariableTable K V S} {name : Text} :
    name ∈ table.namesLongestFirst ↔ ∃ binding ∈ table.bindings, binding.name = name := by
  unfold VariableTable.namesLongestFirst
  rw [List.mem_mergeSort, List.mem_map]

theorem isVariable_of_mem_names {table : VariableTable K V S}
    (h : ∀ binding ∈ table.bindings, Script.IsVariable binding.name) :
    ∀ name ∈ table.namesLongestFirst, Script.IsVariable name := by
  intro name hname
  obtain ⟨binding, hbinding, rfl⟩ := mem_namesLongestFirst.mp hname
  exact h binding hbinding

/-- A token is looked for among the names when it is bound. -/
theorem exists_mem_namesLongestFirst {table : VariableTable K V S} {token : Text} :
    (∃ name ∈ table.namesLongestFirst, VariableTable.key name = VariableTable.key token) ↔
      (table.get? token).isSome := by
  unfold VariableTable.get?
  rw [List.find?_isSome]
  constructor
  · rintro ⟨name, hname, hkey⟩
    obtain ⟨binding, hbinding, rfl⟩ := mem_namesLongestFirst.mp hname
    exact ⟨binding, hbinding, beq_iff_eq.mpr hkey⟩
  · rintro ⟨binding, hbinding, hkey⟩
    exact ⟨_, mem_namesLongestFirst.mpr ⟨binding, hbinding, rfl⟩, eq_of_beq hkey⟩

/-- An expression that cannot be prepared cannot be whatever names there are. -/
theorem prepare_eq_error {source : Text} {names : List Text} {fault : ExpressionFault}
    (h : prepare source names = .error fault) (names' : List Text) :
    prepare source names' = .error fault := by
  unfold prepare at h ⊢
  dsimp only at h ⊢
  split
  next hempty =>
    rw [if_pos hempty] at h
    exact h
  next hempty =>
    rw [if_neg hempty] at h
    cases hparentheses : checkParentheses (Text.squeeze source) with
    | error fault =>
        rw [hparentheses] at h
        exact h
    | ok done =>
        rw [hparentheses] at h
        cases h

/-- A part of an expression whose value is kept at two places. It has one token, with no mark of
placeholders in it. -/
structure Part.Same (part part' : Part K V S) : Prop where
  value : part.value.Twin part'.value
  provenance : part'.provenance = part.provenance
  token : part'.token = part.token
  plain : '#' ∉ part.token

theorem Part.Same.twin {part part' : Part K V S} (h : part.Same part') : part.Twin part' :=
  ⟨h.value, h.provenance, by rw [h.token]⟩

/-- Two bindings that are read alike: the value is the same up to where it is kept, and the tables
stay related when it is loaded in both. -/
structure Binding.ReadAlike (P : VariableTable K V S → VariableTable K V S → Prop)
    (table table' : VariableTable K V S) (binding binding' : Binding K V S) : Prop where
  name : binding'.name = binding.name
  plain : '#' ∉ binding.name
  value : binding'.value.unkept = binding.value.unkept
  update : ∀ value value' : Operand K V S, value.slot = binding.value.slot →
    value'.slot = binding'.value.slot → value'.unkept = value.unkept →
      P (table.update value) (table'.update value')

section Keyword

variable {token : Text}

/-- What the keyword for no data is spelled with. -/
structure IsKeyword (token : Text) : Prop where
  ascii : ∀ c ∈ token, c.toNat < 128
  spelled : isNodataToken token

namespace IsKeyword

variable (h : IsKeyword token)
include h

theorem upperAscii_eq : Text.upperAscii token = nodataKey := by
  have hkey := eq_of_beq h.spelled
  rwa [Text.upper_of_ascii h.ascii] at hkey

theorem letters : ∀ c ∈ token, c ∈ "NODATAnodata".toList := by
  intro c hc
  have hupper : c.toUpper ∈ nodataKey := h.upperAscii_eq ▸ List.mem_map_of_mem hc
  exact Text.forall_ascii (p := fun c => c.toUpper ∈ nodataKey → c ∈ "NODATAnodata".toList)
    (by decide +kernel) (h.ascii c hc) hupper

theorem mark_not_mem : '#' ∉ token :=
  fun hmem => absurd (h.letters _ hmem) (by decide)

theorem point_not_mem : '.' ∉ token :=
  fun hmem => absurd (h.letters _ hmem) (by decide)

/-- One letter of the keyword stands neither in a number nor in the name of a function or in the
suffix of files. -/
theorem exists_foreign : ∃ c ∈ token, isForeign c ∧ c.toLower ∉ idfSuffix := by
  have hmem : 'T' ∈ Text.upperAscii token := h.upperAscii_eq ▸ by decide
  obtain ⟨c, hc, hupper⟩ := List.mem_map.mp hmem
  have hletter : c.toUpper = 'T' → isForeign c ∧ c.toLower ∉ idfSuffix :=
    Text.forall_ascii (p := fun c => c.toUpper = 'T' → isForeign c ∧ c.toLower ∉ idfSuffix)
      (by decide +kernel) (h.ascii c hc)
  exact ⟨c, hc, hletter hupper⟩

theorem isInert : IsInert token := by
  obtain ⟨c, hc, hforeign, -⟩ := h.exists_foreign
  have hplain : ∀ d ∈ "NODATAnodata".toList, isPlain d := List.all_eq_true.mp (by decide)
  exact ⟨fun d hd => hplain d (h.letters d hd), c, hc, hforeign⟩

/-- The keyword is part of no longer keyword. -/
theorem eq_of_infix {front back : Text} (hlonger : isNodataToken (front ++ (token ++ back))) :
    front = [] ∧ back = [] := by
  have hlength : (Text.upper token).length = (Text.upper (front ++ (token ++ back))).length :=
    congrArg List.length ((eq_of_beq h.spelled).trans (eq_of_beq hlonger).symm)
  unfold Text.upper at hlength
  rw [List.flatMap_append, List.flatMap_append, List.length_append, List.length_append] at hlength
  exact ⟨Text.eq_nil_of_upper_eq_nil (List.length_eq_zero_iff.mp (by unfold Text.upper; omega)),
    Text.eq_nil_of_upper_eq_nil (List.length_eq_zero_iff.mp (by unfold Text.upper; omega))⟩

end IsKeyword

end Keyword

variable [Coordinate K] [Number V] [Cell S V] {s t : Session K V S} {scope scope' : Scope K V}
  {heed : Fault → Prop}

section Scopes

variable (hsettings : scope'.settings = scope.settings)
include hsettings

/-- Bindings that are read alike make readings of variables agree. -/
theorem agree_readVariable {name name' : Text} (hst : s.Over P t)
    (hitem : Matching (Binding.ReadAlike P s.table t.table) (s.table.item name)
      (t.table.item name')) :
    Run.Agree (Session.Over P) heed Part.Same s t (scope.readVariable name)
      (scope'.readVariable name') := by
  unfold Scope.readVariable
  refine .get_bind (.bind (.lift hst hitem) fun binding binding' _ _ hbound h => ?_)
  have hmatching : Matching Operand.Twin (binding.value.load s.files)
      (binding'.value.load t.files) := by
    rw [hst.files_eq]
    exact Operand.Twin.load hbound.value s.files
  refine .bind (.lift h hmatching.and_eq) fun value value' _ _ hvalue _ => ?_
  rw [hsettings]
  obtain ⟨htwin, hload, hload'⟩ := hvalue
  have htwin := htwin.substituteNodata scope.settings
  have hslot : (substituteNodata scope.settings value).slot = binding.value.slot :=
    (Operand.Reloaded.of_load hload).slot_eq
  have hslot' : (substituteNodata scope.settings value').slot = binding'.value.slot :=
    (Operand.Reloaded.of_load hload').slot_eq
  refine .bind (.set (hst.withTables (hbound.update _ _ hslot hslot' htwin.unkept_eq)))
    fun _ _ _ _ _ h => .pure h ⟨htwin, ?_, hbound.name, hbound.plain⟩
  rw [htwin.isConstant_eq]

/-- A file is read alike whatever variables there are. -/
theorem agree_readFile (name : Text) (hst : s.Over P t) :
    Run.Agree (Session.Over P) heed Operand.Twin s t (scope.readFile name)
      (scope'.readFile name) := by
  unfold Scope.readFile
  rw [hsettings]
  refine .get_bind ?_
  dsimp only
  rw [hst.files_eq]
  split
  next =>
    exact .ite (fun _ => .throw_bind hst rfl) fun _ => .throw_bind hst rfl
  next =>
    have hread : Traced.Matching Eq (Grid.read s.files (scope.settings.resolveInput name))
        (Grid.read (K := K) (V := V) (S := S) s.files (scope.settings.resolveInput name)) :=
      .of_eq rfl
    refine .bind (.traced hst (fun record h => h.addRecord record) hread)
      fun grid _ _ _ hgrid h => ?_
    subst hgrid
    exact .bind (.lift h (Grid.Twin.load rfl s.files)) fun _ _ _ _ hloaded h =>
      .pure h (.grid hloaded)

omit hsettings in
/-- Results are recorded alike wherever they are kept. -/
theorem agree_emit (settings : Settings K V) (id text : Text) {value value' : Operand K V S}
    (hvalue : value.Twin value') (hst : s.Over P t) :
    Run.Agree (Session.Over P) heed (fun _ _ => True) s t (emit settings id text value)
      (emit settings id text value') := by
  unfold emit
  refine .ite (fun _ => .bind (.record (hst.addRecord _)) fun _ _ s t _ hst => ?_)
    fun _ => .pure hst trivial
  cases hvalue with
  | constant c => exact .record (hst.addRecord _)
  | @grid g g' hg =>
      refine .get_bind (.bind (Q := Eq) ?_ fun _ _ _ _ _ h => ?_)
      · rw [hst.files_eq, hg.write]
        refine .changeFiles ?_ ?_
        · rw [hst.files_eq]
          exact .of_eq rfl
        · rw [hst.files_eq]
          exact hst.withFiles _
      · rw [hst.files_eq]
        exact .record (h.addRecord _)

/-- How two tables look up the names of an expression. What one token spells is read alike, and only
the keyword for no data is a name for the first table alone. -/
structure LooksUp (P : VariableTable K V S → VariableTable K V S → Prop) (heed : Fault → Prop)
    (source : Text) (names names' : List Text) (scope scope' : Scope K V) : Prop where
  both : ∀ {s t : Session K V S} {token name name' : Text}, s.Over P t →
    token ∈ wholeTokens (Text.squeeze source) → name' ∈ names' →
    VariableTable.key name = VariableTable.key token →
    VariableTable.key name' = VariableTable.key token →
      Run.Agree (Session.Over P) heed Part.Same s t (scope.readVariable name)
        (scope'.readVariable name')
  first : ∀ {token name : Text}, token ∈ wholeTokens (Text.squeeze source) → name ∈ names →
    VariableTable.key name = VariableTable.key token →
    (∀ name' ∈ names', VariableTable.key name' ≠ VariableTable.key token) →
      IsKeyword token ∧ ∀ {s t : Session K V S}, s.Over P t →
        Run.Agree (Session.Over P) heed Part.Same s t (scope.readVariable name)
          (pure ⟨.constant Constant.ofKeyword, .constant, Constant.nodataName⟩)

section Tokens

variable {source : Text} {names names' : List Text} {a b : Text}
  (hlooks : LooksUp P heed source names names' scope scope')
  (hprepare : prepare source names = .ok scope.prepared)
  (hprepare' : prepare source names' = .ok scope'.prepared)
include hlooks hprepare

omit hsettings in
/-- In the place of a placeholder there is a placeholder or the keyword for no data. -/
theorem exists_of_named (h : Named source names' scope.prepared scope'.prepared a b) :
    (∃ i, a = placeholder i) ∧ ((∃ j, b = placeholder j) ∨ IsKeyword b) := by
  cases h with
  | both => exact ⟨⟨_, rfl⟩, .inl ⟨_, rfl⟩⟩
  | first htoken hname hkey hnone =>
      obtain ⟨index, -, hmem⟩ := exists_mem_of_name? hprepare hname
      have hname := List.fst_mem_of_mem_zipIdx hmem
      exact ⟨⟨_, rfl⟩, .inr (hlooks.first htoken hname hkey hnone).1⟩

omit hsettings in
theorem areRead_named :
    AreRead (Shared (· ≠ '#')) (Named source names' scope.prepared scope'.prepared) := by
  refine ⟨fun h => .inl h.1, fun h => ?_⟩
  obtain ⟨⟨i, rfl⟩, ⟨j, rfl⟩ | hkeyword⟩ := exists_of_named hlooks hprepare h
  · exact ⟨isInert_placeholder i, isInert_placeholder j⟩
  · exact ⟨isInert_placeholder i, hkeyword.isInert⟩

omit hsettings in
/-- A name beside other characters is neither the keyword for no data nor part of the name of a
file. -/
theorem not_keyword_of_beside {front c back front' d back' : Text}
    (halike : Alike (Shared (· ≠ '#')) (Named source names' scope.prepared scope'.prepared)
      (front ++ (c ++ back)) (front' ++ (d ++ back')))
    (hcd : Named source names' scope.prepared scope'.prepared c d)
    (hfront : Alike (Shared (· ≠ '#')) (Named source names' scope.prepared scope'.prepared)
      front front')
    (hback : Alike (Shared (· ≠ '#')) (Named source names' scope.prepared scope'.prepared)
      back back')
    (hnamed : ¬ Named source names' scope.prepared scope'.prepared (front ++ (c ++ back))
      (front' ++ (d ++ back')))
    (hfile : ¬ Text.endsCaseless idfSuffix (front ++ (c ++ back))) :
    isNodataToken (front' ++ (d ++ back')) = false ∧
      ¬ Text.endsCaseless idfSuffix (front' ++ (d ++ back')) := by
  constructor
  · rcases (exists_of_named hlooks hprepare hcd).2 with ⟨j, rfl⟩ | hkeyword
    · exact isNodataToken_of_mark (by simp [placeholder])
    · refine eq_false_of_ne_true fun hlonger => hnamed ?_
      obtain ⟨rfl, rfl⟩ := hkeyword.eq_of_infix hlonger
      have hread := areRead_named hlooks hprepare
      obtain rfl : front = [] := List.isEmpty_iff.mp (hread.isEmpty_eq hfront)
      obtain rfl : back = [] := List.isEmpty_iff.mp (hread.isEmpty_eq hback)
      simpa using hcd
  · refine fun h => hfile (halike.endsCaseless_idf (fun h => ?_) h)
    rcases (exists_of_named hlooks hprepare h).2 with ⟨j, rfl⟩ | hkeyword
    · refine ⟨fun hmem => ?_, '#', List.mem_cons_self, by decide⟩
      exact absurd (mark_or_isDigit_of_mem hmem) (by decide)
    · obtain ⟨c, hc, -, hout⟩ := hkeyword.exists_foreign
      exact ⟨hkeyword.point_not_mem, c, hc, hout⟩

include hprepare'

omit hsettings in
/-- A token that is no name on both sides is a name on none. -/
theorem name?_eq_none_of_not_named
    (halike : Alike (Shared (· ≠ '#')) (Named source names' scope.prepared scope'.prepared) a b)
    (hnamed : ¬ Named source names' scope.prepared scope'.prepared a b) :
    scope.prepared.name? a = none ∧ scope'.prepared.name? b = none := by
  have hread := areRead_named hlooks hprepare
  constructor
  · cases hsome : scope.prepared.name? a with
    | none => rfl
    | some name =>
        obtain ⟨i, rfl⟩ := exists_placeholder_of_name? hprepare hsome
        refine absurd (halike.of_placeholder hread (fun h => h.2 rfl) fun h => ?_) hnamed
        exact .inl (exists_of_named hlooks hprepare h).1
  · cases hsome : scope'.prepared.name? b with
    | none => rfl
    | some name =>
        obtain ⟨j, rfl⟩ := exists_placeholder_of_name? hprepare' hsome
        refine absurd (halike.symm.of_placeholder hread.symm ?_ fun h => ?_) hnamed
        · exact fun h : _ ∧ _ => h.2 h.1
        · exact (exists_of_named hlooks hprepare h).2.imp_right IsKeyword.mark_not_mem

omit hsettings in
/-- What one name stands for on both sides is looked up alike. -/
theorem agree_resolveName_of_named (h : Named source names' scope.prepared scope'.prepared a b)
    (hst : s.Over P t) :
    Run.Agree (Session.Over P) heed Part.Same s t (scope.resolveName a)
      (scope'.resolveName b) := by
  cases h with
  | both htoken hname hname' hkey hkey' =>
      obtain ⟨index, -, hmem⟩ := exists_mem_of_name? hprepare' hname'
      unfold Scope.resolveName
      rw [hname, hname']
      exact hlooks.both hst htoken (List.fst_mem_of_mem_zipIdx hmem) hkey hkey'
  | @first i token name htoken hname hkey hnone =>
      obtain ⟨index, -, hmem⟩ := exists_mem_of_name? hprepare hname
      obtain ⟨hkeyword, hagree⟩ :=
        hlooks.first htoken (List.fst_mem_of_mem_zipIdx hmem) hkey hnone
      have hname' : scope'.prepared.name? b = none := by
        cases hsome : scope'.prepared.name? b with
        | none => rfl
        | some other =>
            obtain ⟨j, rfl⟩ := exists_placeholder_of_name? hprepare' hsome
            exact absurd List.mem_cons_self hkeyword.mark_not_mem
      unfold Scope.resolveName
      rw [hname, hname']
      dsimp only
      rw [if_pos hkeyword.spelled]
      exact hagree hst

/-- Names are looked up alike: they stand for one name, or what they are is not said by the
tables. -/
theorem agree_resolveName
    (halike : Alike (Shared (· ≠ '#')) (Named source names' scope.prepared scope'.prepared) a b)
    (hfile : Text.endsCaseless idfSuffix a → '#' ∉ a) (hst : s.Over P t) :
    Run.Agree (Session.Over P) heed Part.Same s t (scope.resolveName a)
      (scope'.resolveName b) := by
  by_cases hnamed : Named source names' scope.prepared scope'.prepared a b
  · exact agree_resolveName_of_named hlooks hprepare hprepare' hnamed hst
  obtain ⟨hname, hname'⟩ := name?_eq_none_of_not_named hlooks hprepare hprepare' halike hnamed
  unfold Scope.resolveName
  rw [hname, hname']
  dsimp only
  rcases halike.forall₂_or_name with
    hsame | ⟨front, c, back, front', d, back', rfl, rfl, hcd, hfront, hback⟩
  · obtain ⟨rfl, hplain⟩ : a = b ∧ '#' ∉ a := by
      rcases (Alike.of_forall₂ hsame : Alike _ (fun _ _ => False) a b).eq_or_name with
        ⟨rfl, hplain⟩ | ⟨_, _, hfalse, -⟩
      · exact ⟨rfl, fun hmem => hplain _ hmem rfl⟩
      · exact hfalse.elim
    refine .ite (fun _ => ?_) fun _ => .ite (fun _ => ?_) fun _ => .throw hst rfl
    · have hkeyword : '#' ∉ Constant.nodataName := by decide
      exact .pure hst ⟨.constant Constant.ofKeyword none none, rfl, rfl, hkeyword⟩
    · refine .bind (agree_readFile hsettings a hst) fun value value' _ _ hvalue h => ?_
      rw [hsettings]
      exact .pure h ⟨hvalue.substituteNodata _, rfl, rfl, hplain⟩
  · have hmark : '#' ∈ front ++ (c ++ back) := by
      obtain ⟨⟨i, rfl⟩, -⟩ := exists_of_named hlooks hprepare hcd
      simp [placeholder]
    have hsuffix : ¬ Text.endsCaseless idfSuffix (front ++ (c ++ back)) :=
      fun hends => hfile hends hmark
    obtain ⟨hnodata', hsuffix'⟩ := not_keyword_of_beside hlooks hprepare halike hcd
      hfront hback hnamed hsuffix
    rw [isNodataToken_of_mark hmark, hnodata', if_neg Bool.false_ne_true,
      if_neg Bool.false_ne_true, if_neg hsuffix, if_neg hsuffix']
    exact .throw hst rfl

/-- Tokens are resolved alike. -/
theorem agree_resolveToken
    (halike : Alike (Shared (· ≠ '#')) (Named source names' scope.prepared scope'.prepared) a b)
    (hfile : Text.endsCaseless idfSuffix a → '#' ∉ a) (hst : s.Over P t) :
    Run.Agree (Session.Over P) heed Part.Same s t (scope.resolveToken a)
      (scope'.resolveToken b) := by
  have hread := areRead_named hlooks hprepare
  have hcases : (a = b ∧ '#' ∉ a) ∨
      (literal? a : Option V) = none ∧ (literal? b : Option V) = none := by
    rcases halike.eq_or_name with ⟨rfl, hplain⟩ | ⟨c, d, hcd, hc, hd⟩
    · exact .inl ⟨rfl, fun hmem => hplain _ hmem rfl⟩
    · obtain ⟨⟨-, e, he, hforeign⟩, ⟨-, e', he', hforeign'⟩⟩ := hread.names hcd
      exact .inr ⟨literal?_of_foreign ⟨e, hc.subset he, hforeign⟩,
        literal?_of_foreign ⟨e', hd.subset he', hforeign'⟩⟩
  have hnumber : (literal? b : Option V) = literal? a := by
    rcases hcases with ⟨rfl, -⟩ | ⟨h, h'⟩
    · rfl
    · rw [h, h']
  unfold Scope.resolveToken
  rw [hnumber]
  cases hliteral : (literal? a : Option V) with
  | some value =>
      obtain ⟨rfl, hplain⟩ : a = b ∧ '#' ∉ a :=
        hcases.resolve_right fun h => by cases hliteral.symm.trans h.1
      exact .pure hst ⟨.constant (.of value) none none, rfl, rfl, hplain⟩
  | none =>
      obtain ⟨hnegated, hname⟩ := signedName_alike hread halike
      dsimp only
      rw [← hnegated]
      refine .bind (agree_resolveName hsettings hlooks hprepare hprepare' hname
        (fun hends hmem => ?_) hst) fun part part' _ _ hpart h => Scope.agree_signed h _ hpart ?_
      · refine hfile (endsCaseless_of_signedName hends) ?_
        exact eq_minus_append a ▸ List.mem_append_right _ hmem
      · refine hpart.value.negate.mono fun value value' hvalue => ⟨hvalue, hpart.provenance, ?_, ?_⟩
        · rw [hpart.token]
        · simpa using hpart.plain

/-- The two scopes agree on tokens that are alike, on merges and on calls. -/
theorem agrees_of_looksUp [Conversion K V] :
    Scope.Agrees (Session.Over (S := S) P) heed Part.Same (fun a b =>
        TokensAlike (Shared (· ≠ '#')) (Named source names' scope.prepared scope'.prepared)
          scope.prepared.text a b ∧ (Text.endsCaseless idfSuffix a → '#' ∉ a)) scope scope' where
  depth := by rw [hsettings]
  number hst := .nextId hst.counter_eq (hst.counter_eq ▸ hst.withCounter _)
  token hst h := agree_resolveToken hsettings hlooks hprepare hprepare' h.1.1 h.2 hst
  merge {s t left left' right right'} op hst hleft hright := by
    refine Scope.agree_mergeLinks (P := fun _ => Session.Over P) id
      (fun h => .nextId h.counter_eq (h.counter_eq ▸ h.withCounter _)) hst
      (fun record h => h.addRecord record)
      ((combine_twin hsettings hleft.twin hright.twin op).mono fun value value' hvalue number =>
        ⟨hvalue, rfl, rfl, mark_not_mem_expressionId number⟩)
      fun number value value' hst hvalue => ?_
    have hsign : '#' ∉ op.sign := by cases op <;> decide
    have htext : '#' ∉ left.token ++ op.sign ++ right.token := by
      simp [hleft.plain, hsign, hright.plain]
    rw [hleft.token, hright.token, expand_of_not_mem _ htext, expand_of_not_mem _ htext, hsettings]
    exact agree_emit _ _ _ hvalue.value hst
  call {s t parts parts'} function hst hparts := by
    refine Scope.agree_call (P := fun _ => Session.Over P)
      id (fun h => .nextId h.counter_eq (h.counter_eq ▸ h.withCounter _)) hst
      (fun record h => h.addRecord record)
      (hsettings ▸ (compute_twin (hparts.imp fun _ _ h => h.twin) _ _ _ function).mono
        fun value value' hvalue number => ⟨hvalue, rfl, rfl, mark_not_mem_expressionId number⟩)
      fun number value value' hst hvalue => ?_
    have hplain : ∀ token ∈ parts.map (·.token), '#' ∉ token := by
      induction hparts with
      | nil => nofun
      | cons h _ ih => exact List.forall_mem_cons.mpr ⟨h.plain, ih⟩
    have htokens : parts'.map (·.token) = parts.map (·.token) := by
      clear hplain
      induction hparts with
      | nil => rfl
      | cons h _ ih => rw [List.map_cons, List.map_cons, h.token, ih]
    have hname : '#' ∉ function.name.toList := by cases function <;> decide
    have htext : '#' ∉ function.name.toList ++
        '(' :: List.intercalate [','] (parts.map (·.token)) ++ [')'] := by
      simp [hname, mark_not_mem_intercalate hplain]
    rw [htokens, expand_of_not_mem _ htext, expand_of_not_mem _ htext, hsettings]
    exact agree_emit _ _ _ hvalue.value hst
  negate {part part'} hpart :=
    hpart.value.negate.mono fun value value' hvalue =>
      ⟨hvalue, hpart.provenance, by rw [hpart.token], by simpa using hpart.plain⟩

end Tokens

end Scopes

section Parsing

variable [Conversion K V] {settings : Settings K V} {source : Text}
  (hsource : ∀ c ∈ Text.squeeze source, c.toNat < 128 ∧ c ≠ '#')
  (hnames : ∀ binding ∈ s.table.bindings, Script.IsVariable binding.name)
  (hnames' : ∀ binding ∈ t.table.bindings, Script.IsVariable binding.name)
  (hbound : ∀ token ∈ wholeTokens (Text.squeeze source),
    (t.table.get? token).isSome → (s.table.get? token).isSome)
  (hfiles : KeepsFileNames s.table.namesLongestFirst source)
include hsource hnames hnames' hbound hfiles

/-- An expression is evaluated alike over two tables that look its names up alike, unless a name has
been replaced in the name of a file. -/
theorem agree_parse
    (hlooks : ∀ prepared prepared', LooksUp P heed source s.table.namesLongestFirst
      t.table.namesLongestFirst ⟨settings, prepared⟩ ⟨settings, prepared'⟩) (hst : s.Over P t) :
    Run.Agree (Session.Over P) heed
      (fun found found' => found'.1.unkept = found.1.unkept ∧ found'.2 = found.2) s t
      (parse settings source) (parse settings source) := by
  unfold parse
  refine .get_bind ?_
  cases hprepare : prepare source s.table.namesLongestFirst with
  | error fault =>
      rw [prepare_eq_error hprepare]
      exact .throw hst rfl
  | ok prepared =>
      cases hprepare' : prepare source t.table.namesLongestFirst with
      | error fault => cases hprepare.symm.trans (prepare_eq_error hprepare' _)
      | ok prepared' =>
          have halike := alike_prepare hsource (isVariable_of_mem_names hnames)
            (isVariable_of_mem_names hnames') (fun token htoken h =>
              exists_mem_namesLongestFirst.mpr
                (hbound token htoken (exists_mem_namesLongestFirst.mp h))) hprepare hprepare'
          have hread := areRead_named (hlooks prepared prepared') hprepare
          have hlike := (halike.like_readChain hread).of_tokens (hfiles prepared hprepare)
          have hsettings : (⟨settings, prepared'⟩ : Scope K V).settings =
              (⟨settings, prepared⟩ : Scope K V).settings := rfl
          have hagrees :=
            agrees_of_looksUp hsettings (hlooks prepared prepared') hprepare hprepare'
          refine (agree_evaluate hagrees hlike hst).mono ?_
          rintro _ _ ⟨part, part', hpart, rfl, rfl⟩
          refine ⟨hpart.value.unkept_eq, ?_⟩
          dsimp only
          rw [hpart.value.isConstant_eq, hpart.provenance]

/-- Over the two tables an expression has one value and leaves sessions that differ in their tables
only, or it fails by faults of one kind. -/
theorem outcomes_parse
    (hlooks : ∀ prepared prepared', LooksUp P (fun _ => True) source s.table.namesLongestFirst
      t.table.namesLongestFirst ⟨settings, prepared⟩ ⟨settings, prepared'⟩) (hst : s.Over P t) :
    (∀ value provenance after,
      Run.from? s (parse settings source) = (.ok (value, provenance), after) →
        ∃ value' table, value'.unkept = value.unkept ∧
          Run.from? t (parse settings source) =
            (.ok (value', provenance), { after with table })) ∧
    ∀ fault after, Run.from? s (parse settings source) = (.error fault, after) →
      ∃ fault' table, fault'.kind = fault.kind ∧
        Run.from? t (parse settings source) = (.error fault', { after with table }) := by
  have h := agree_parse hsource hnames hnames' hbound hfiles hlooks hst
  obtain ⟨hgives, hfails⟩ := h.outcomes
  refine ⟨fun value provenance after hrun => ?_, fun fault after hrun => ?_⟩
  · obtain ⟨⟨value', _⟩, after', hrun', ⟨hvalue, rfl⟩, hafter⟩ := hgives _ _ hrun
    exact ⟨value', after'.table, hvalue, hafter.eq ▸ hrun'⟩
  · obtain ⟨fault', after', hrun', hkind, hafter⟩ := hfails _ _ hrun
    exact ⟨fault', after'.table, hkind.symm, hafter.eq ▸ hrun'⟩

end Parsing

end Expression

end MapAlgebra
