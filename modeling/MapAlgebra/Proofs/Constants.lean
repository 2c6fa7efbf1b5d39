import MapAlgebra.Proofs.Backing
import MapAlgebra.Proofs.Likeness
import MapAlgebra.Proofs.Substitution

/-!
# Scripts without grids

A script in which no file is named computes with constants only: no variable holds a grid, no
operator and no function makes one of constants, and a constant is never written. Such a script
leaves the files alone, whether it completes or fails.
-/

namespace MapAlgebra

open Expression

variable {K V S : Type}

/-- A text names a file when `.idf` occurs in it, whatever the blanks and the case of letters. -/
def NamesFile (text : Text) : Prop :=
  Text.hasPart idfSuffix (Text.lowerAscii (Text.squeeze text)) = true

instance (text : Text) : Decidable (NamesFile text) :=
  inferInstanceAs (Decidable (_ = true))

namespace Expression

/-- The suffix of file names has no blanks, and none of the characters of placeholders. -/
theorem toLower_not_mem_idfSuffix {c : Char} (h : c = '#' ∨ c.isDigit ∨ Text.isBlank c) :
    c.toLower ∉ idfSuffix := by
  have hlower : c.toLower = c := by
    have hcode : c.toNat = c.val.toNat := rfl
    unfold Char.toLower
    rcases h with rfl | h | h
    · rfl
    · simp only [Char.isDigit, Bool.and_eq_true, decide_eq_true_eq, ge_iff_le,
        UInt32.le_iff_toNat_le] at h ⊢
      grind
    · simp only [Text.isBlank, ge_iff_le, Bool.or_eq_true, Bool.and_eq_true, decide_eq_true_eq,
        UInt32.le_iff_toNat_le, beq_iff_eq] at h ⊢
      grind
  have hsuffix : idfSuffix = ['.', 'i', 'd', 'f'] := rfl
  rw [hlower, hsuffix]
  intro hmem
  simp only [List.mem_cons, List.not_mem_nil, or_false] at hmem
  rcases hmem with rfl | rfl | rfl | rfl <;> revert h <;> decide

/-- A text that ends like a file name names a file. -/
theorem namesFile_of_endsCaseless {text : Text} (h : Text.endsCaseless idfSuffix text) :
    NamesFile text := by
  have hkept {c : Char} (hc : c.toLower ∈ idfSuffix) : Text.isBlank c = false :=
    eq_false_of_ne_true fun hblank => toLower_not_mem_idfSuffix (.inr (.inr hblank)) hc
  obtain ⟨front, hfront⟩ := List.isSuffixOf_iff_suffix.mp h
  obtain ⟨front, back, rfl, rfl, hback⟩ := List.map_eq_append_iff.mp hfront.symm
  have hsqueeze : Text.squeeze back = back := List.filter_eq_self.mpr fun c hc => by
    rw [hkept (hback ▸ List.mem_map_of_mem hc)]
    rfl
  refine Text.hasPart_iff.mpr ⟨Text.lowerAscii (Text.squeeze front), [], ?_⟩
  unfold Text.squeeze at hsqueeze ⊢
  rw [List.filter_append, hsqueeze, List.append_nil, ← hback]
  exact (List.map_append).symm

/-- A prepared text names a file only where the expression does. -/
theorem not_infix_of_prepare {source : Text} {names : List Text} {prepared : Prepared}
    (h : prepare source names = .ok prepared) (hsource : ¬ NamesFile source) :
    ¬ idfSuffix <:+: Text.lowerAscii prepared.text := by
  intro hpart
  refine hsource (Text.hasPart_iff.mpr (infix_of_prepare (fun index c hc => ?_) h hpart))
  obtain ⟨d, hd, rfl⟩ := List.mem_map.mp hc
  exact toLower_not_mem_idfSuffix ((mark_or_isDigit_of_mem hd).imp_right .inl)

variable [Coordinate K] [Number V] [Cell S V]
variable {scope : Scope K V}

theorem isConstant_reconcile {operand : Operand K V S} (h : operand.isConstant)
    (target : Option (Extent K)) (label : String) :
    Traced.Gives (fun value => value.isConstant = true) (operand.reconcile target label) := by
  cases operand with
  | constant c =>
      unfold Operand.reconcile
      split
      next heq => cases heq
      next => exact .pure rfl
  | grid g => cases h

theorem isConstant_apply {a b : Operand K V S} (ha : a.isConstant) (hb : b.isConstant)
    (op : Operator) (reverse : Bool) :
    Gives (fun value => value.isConstant = true) (a.apply op b reverse) := by
  cases a with
  | constant c =>
      cases b with
      | constant d => exact .pure rfl
      | grid g => cases hb
  | grid g => cases ha

/-- An operator makes a constant of constants. -/
theorem isConstant_combine {left right : Part K V S} (hleft : left.value.isConstant)
    (hright : right.value.isConstant) (op : Operator) :
    Traced.Gives (fun value => value.isConstant = true) (scope.combine left op right) := by
  have ha : (Scope.nodataResolved left right).1.isConstant := by
    unfold Scope.nodataResolved
    dsimp only
    split
    next => rfl
    next => exact hleft
  have hb : (Scope.nodataResolved left right).2.isConstant := by
    unfold Scope.nodataResolved
    dsimp only
    split
    next => rfl
    next => exact hright
  unfold Scope.combine
  dsimp only
  refine .bind (isConstant_reconcile ha _ _) fun a ha => ?_
  refine .bind (isConstant_reconcile hb _ _) fun b hb => ?_
  exact .lift (isConstant_apply ha hb op false)

theorem isConstant_choose {condition yes no : Part K V S}
    (h : condition.value.isConstant ∧ yes.value.isConstant ∧ no.value.isConstant)
    (fixed : Option (Extent K)) :
    Traced.Gives (fun value => value.isConstant = true) (choose fixed condition yes no) := by
  obtain ⟨hcondition, hyes, hno⟩ := h
  obtain ⟨value, provenance, token⟩ := condition
  obtain ⟨value', provenance', token'⟩ := yes
  obtain ⟨value'', provenance'', token''⟩ := no
  cases value with
  | grid g => cases hcondition
  | constant c =>
      cases value' with
      | grid g => cases hyes
      | constant a =>
          cases value'' with
          | grid g => cases hno
          | constant b => exact .pure rfl

theorem isConstant_extremum {a b : Operand K V S} (h : a.isConstant ∧ b.isConstant)
    (fixed : Option (Extent K)) (function : Function) (op : Operator) :
    Traced.Gives (fun value => value.isConstant = true) (extremum fixed function op a b) := by
  obtain ⟨ha, hb⟩ := h
  cases a with
  | grid g => cases ha
  | constant c =>
      cases b with
      | grid g => cases hb
      | constant d => exact .pure rfl

omit [Number V] [Cell S V] in
theorem isConstant_fit {operand : Operand K V S} (h : operand.isConstant) (prepared : Prepared)
    (function : Function) (reference : Part K V S)
    (change : Grid K V S → Extent K → Traced (Grid K V S)) :
    Traced.Gives (fun value => value.isConstant = true)
      (fit prepared function operand reference change) := by
  cases operand with
  | grid g => cases h
  | constant c => exact .pure rfl

omit [Coordinate K] in
theorem isConstant_withNodata {operand : Operand K V S} (h : operand.isConstant) (nodata : V) :
    Gives (fun value => value.isConstant = true) (operand.withNodata nodata) := by
  cases operand with
  | grid g => cases h
  | constant c => exact .pure rfl

variable [Conversion K V]

/-- A function makes a constant of constants, if it takes constants at all. -/
theorem isConstant_compute {arguments : List (Part K V S)}
    (h : ∀ part ∈ arguments, part.value.isConstant) (fixed : Option (Extent K))
    (prepared : Prepared) (function : Function) :
    Traced.Gives (fun value => value.isConstant = true)
      (function.compute fixed prepared arguments) := by
  have hgrid {part : Part K V S} (hpart : part.value.isConstant) (position : Nat) :
      Gives (fun _ => False) (part.grid prepared function position) := by
    unfold Part.grid
    split
    next heq =>
      rw [heq] at hpart
      cases hpart
    next => exact .throw _
  unfold Function.compute
  refine .ite (.throw_bind _ _) ?_
  split
  next => exact isConstant_choose (by simpa using h) fixed
  next => exact isConstant_extremum (by simpa using h) fixed _ _
  next => exact isConstant_extremum (by simpa using h) fixed _ _
  next part decimals =>
    exact .bind (.lift (hgrid (h part (by simp)) 1)) fun _ hfalse => hfalse.elim
  next part reference => exact isConstant_fit (h part (by simp)) _ _ _ _
  next part reference => exact isConstant_fit (h part (by simp)) _ _ _ _
  next part size methods =>
    split
    next => exact .pure rfl
    next hvalue => exact absurd (h part (by simp)) (by simp [hvalue, Operand.isConstant])
  next part =>
    split
    next => exact .pure rfl
    next hvalue => exact absurd (h part (by simp)) (by simp [hvalue, Operand.isConstant])
  next part => exact .bind (.lift (hgrid (h part (by simp)) 1)) fun _ hfalse => hfalse.elim
  next part wanted => exact .lift (isConstant_withNodata (h part (by simp)) _)
  next => exact .throw _

end Expression

/-- A variable with a constant, which counts as one. -/
structure Binding.IsConstant (binding : Binding K V S) : Prop where
  value : binding.value.isConstant = true
  provenance : binding.provenance = .constant

/-- A session without grids, in which the files are as they were and records go nowhere else. -/
structure Session.Constant (files : FileTree) (session : Session K V S) : Prop where
  files : session.files = files
  logFile : session.logFile = none
  bindings : ∀ binding ∈ session.table.bindings, binding.IsConstant

/-- Keeping a value makes no grid of it. -/
theorem VariableTable.isConstant_kept {binding : Binding K V S} (h : binding.IsConstant)
    (table : VariableTable K V S) : (table.kept binding).IsConstant := by
  refine ⟨?_, h.provenance⟩
  have hvalue := h.value
  unfold kept keep
  dsimp only
  split
  next => exact hvalue
  next =>
    cases hconstant : binding.value with
    | constant c => rfl
    | grid g =>
        rw [hconstant] at hvalue
        cases hvalue

namespace Session.Constant

variable {files : FileTree} {session : Session K V S}

theorem addRecord (h : session.Constant files) (record : Record) :
    (session.addRecord record).Constant files := by
  rw [addRecord_of_logFile_eq_none h.logFile]
  exact ⟨h.files, h.logFile, h.bindings⟩

end Session.Constant

namespace Expression

variable {files : FileTree} {s t : Session K V S}

/-- One session without grids, seen twice. -/
abbrev Same (files : FileTree) (s t : Session K V S) : Prop :=
  t = s ∧ s.Constant files

theorem Same.addRecord (h : Same files s t) (record : Record) :
    Same files (s.addRecord record) (t.addRecord record) := by
  obtain ⟨rfl, hs⟩ := h
  exact ⟨rfl, hs.addRecord record⟩

/-- What a step comes to that agrees with itself. -/
theorem Same.of_agree {α : Type} {Q : α → α → Prop} {step : Run K V S α}
    (h : Run.Agree (Same files) (fun _ => True) Q s s step step) {outcome : Except Fault α}
    {after : Session K V S} (hstep : Run.from? s step = (outcome, after)) :
    after.Constant files ∧ ∀ a, outcome = .ok a → Q a a := by
  unfold Run.Agree at h
  rw [hstep] at h
  cases h with
  | gives ha h =>
      refine ⟨h.2, fun a heq => ?_⟩
      cases heq
      exact ha
  | fails h => exact ⟨(h trivial trivial).2.2, nofun⟩

theorem Same.agree_nextId (h : Same files s t) {heed : Fault → Prop} :
    Run.Agree (Same files) heed (Shared fun id => id = expressionId (s.counter + 1)) s t
      Run.nextId Run.nextId := by
  obtain ⟨rfl, hs⟩ := h
  exact .nextId rfl ⟨rfl, hs.files, hs.logFile, hs.bindings⟩

theorem Same.agree_record (h : Same files s t) {heed : Fault → Prop} (level : Level)
    (text : String) :
    Run.Agree (Same files) heed (fun _ _ => True) s t (Run.record level text)
      (Run.record level text) :=
  .gives trivial (h.addRecord _)

/-- A part that has a constant. -/
abbrev HasConstant (part : Part K V S) : Prop :=
  part.value.isConstant = true

variable [Coordinate K] [Number V] [Cell S V] {scope : Scope K V}

/-- A constant is recorded in the log only. -/
theorem Same.agree_emit (h : Same files s t) {heed : Fault → Prop} {value : Operand K V S}
    (hvalue : value.isConstant) (settings : Settings K V) (id text : Text) :
    Run.Agree (Same files) heed (fun _ _ => True) s t (emit settings id text value)
      (emit settings id text value) := by
  unfold emit
  refine .ite (fun _ => ?_) fun _ => .pure h trivial
  refine .bind (h.agree_record _ _) fun _ _ s t _ h => ?_
  cases value with
  | constant c => exact h.agree_record _ _
  | grid g => cases hvalue

/-- A variable has a constant, which is looked up without any file. -/
theorem Same.agree_readVariable (h : Same files s t) {heed : Fault → Prop} (name : Text) :
    Run.Agree (Same files) heed (Shared HasConstant) s t
      (scope.readVariable name : Run K V S (Part K V S)) (scope.readVariable name) := by
  obtain ⟨rfl, hs⟩ := h
  unfold Scope.readVariable
  refine .get_bind (.bind (.lift ⟨rfl, hs⟩ (.shared fun binding hbinding => hbinding)) ?_)
  rintro binding _ _ _ ⟨rfl, hbinding⟩ h
  have hmem := (VariableTable.mem_of_get?_eq_some
    (VariableTable.item_eq_ok_iff.mp hbinding)).1
  obtain ⟨c, hvalue⟩ : ∃ c, binding.value = .constant c := by
    have hconstant := (hs.bindings binding hmem).value
    cases hvalue : binding.value with
    | constant c => exact ⟨c, rfl⟩
    | grid g =>
        rw [hvalue] at hconstant
        cases hconstant
  rw [hvalue]
  have hload : Matching (Shared (· = Operand.constant c)) ((Operand.constant c).load t.files)
      ((Operand.constant c : Operand K V S).load t.files) := .ok ⟨rfl, rfl⟩
  refine .bind (.lift h hload) ?_
  rintro _ _ s t ⟨rfl, rfl⟩ h
  refine .bind (.set ⟨rfl, hs.files, hs.logFile, fun other hother => ?_⟩)
    fun _ _ _ _ _ h => .pure h ⟨rfl, rfl⟩
  -- a constant takes the place of what it was loaded from
  dsimp only [VariableTable.update] at hother
  split at hother
  next => exact hs.bindings other hother
  next =>
    obtain ⟨old, hold, rfl⟩ := List.mem_map.mp hother
    split
    next => exact ⟨rfl, (hs.bindings old hold).provenance⟩
    next => exact hs.bindings old hold

omit [Coordinate K] in
theorem hasConstant_negate {part : Part K V S} (h : HasConstant part) :
    Matching (fun value value' => Shared HasConstant
      { part with value, token := '-' :: part.token }
      { part with value := value', token := '-' :: part.token }) part.value.negate
      part.value.negate :=
  .self fun value hvalue => ⟨rfl, (Operand.isConstant_negate _ value hvalue).trans h⟩

/-- A token of a text that names no file stands for a constant, if it stands for anything. -/
theorem Same.agree_resolveToken (h : Same files s t) {heed : Fault → Prop}
    (hnames : ¬ idfSuffix <:+: Text.lowerAscii scope.prepared.text) {token : Text}
    (htoken : token <:+: scope.prepared.text) :
    Run.Agree (Same files) heed (Shared HasConstant) s t
      (scope.resolveToken token : Run K V S (Part K V S)) (scope.resolveToken token) := by
  have hsigned {negated : Bool} {part : Part K V S} (hpart : HasConstant part)
      {s t : Session K V S} (h : Same files s t) :
      Run.Agree (Same files) heed (Shared HasConstant) s t (Scope.signed negated part)
        (Scope.signed negated part) := by
    unfold Scope.signed
    refine .ite (fun _ => ?_) fun _ => .pure h ⟨rfl, hpart⟩
    exact .bind (.lift h (hasConstant_negate hpart)) fun _ _ _ _ hvalue h => .pure h hvalue
  unfold Scope.resolveToken
  split
  next => exact .pure h ⟨rfl, rfl⟩
  next =>
    have hname : (signedName token).2 <:+: scope.prepared.text := by
      unfold signedName
      split
      next => exact (List.suffix_cons _ _).isInfix.trans htoken
      next => exact htoken
    refine .bind (Q := Shared HasConstant) ?_ fun part _ _ _ hpart h => ?_
    swap
    · obtain ⟨rfl, hpart⟩ := hpart
      exact hsigned hpart h
    unfold Scope.resolveName
    split
    next bound _ => exact h.agree_readVariable bound
    next =>
      refine .ite (fun _ => .pure h ⟨rfl, rfl⟩) fun _ =>
        .ite (fun hends => ?_) fun _ => .throw h rfl
      -- a token that ended like a file name would be part of the text
      have hsuffix : idfSuffix <:+ Text.lowerAscii (signedName token).2 :=
        List.isSuffixOf_iff_suffix.mp hends
      exact absurd (hsuffix.isInfix.trans (hname.map _)) hnames

variable [Conversion K V]

/-- Evaluation goes on without grids. -/
theorem agrees_self {heed : Fault → Prop} {settings : Settings K V} {prepared : Prepared}
    (hnames : ¬ idfSuffix <:+: Text.lowerAscii prepared.text) :
    Scope.Agrees (S := S) (Same files) heed (Shared HasConstant) (IsTokenOf prepared.text)
      ⟨settings, prepared⟩ ⟨settings, prepared⟩ where
  depth := rfl
  number h := h.agree_nextId
  token h htoken := by
    obtain rfl := htoken.eq
    exact h.agree_resolveToken hnames htoken.2
  merge op h hleft hright := by
    obtain ⟨hleft, hleftConstant⟩ := hleft
    obtain ⟨hright, hrightConstant⟩ := hright
    refine Scope.agree_mergeLinks (P := fun _ => Same files) id (fun h => h.agree_nextId) h
      (fun record h => h.addRecord record) ?_ ?_
    · rw [← hleft, ← hright]
      refine .self ((isConstant_combine hleftConstant hrightConstant op).mono ?_)
      exact fun value hvalue number => ⟨rfl, hvalue⟩
    · rintro s t number value value' h ⟨heq, hvalue⟩
      obtain rfl := (Part.mk.inj heq).1
      rw [← hleft, ← hright]
      exact h.agree_emit hvalue _ _ _
  call {s t parts parts'} function h hparts := by
    obtain rfl : parts = parts' :=
      List.forall₂_eq_eq_eq ▸ hparts.imp fun _ _ hpart => hpart.1
    have hconstant : ∀ part ∈ parts, HasConstant part := fun part hpart =>
      (List.forall₂_same.mp hparts part hpart).2
    refine Scope.agree_call (P := fun _ => Same files) id (fun h => h.agree_nextId) h
      (fun record h => h.addRecord record) ?_ ?_
    · refine .self ((isConstant_compute hconstant _ _ function).mono ?_)
      exact fun value hvalue number => ⟨rfl, hvalue⟩
    · rintro s t number value value' h ⟨heq, hvalue⟩
      obtain rfl := (Part.mk.inj heq).1
      exact h.agree_emit hvalue _ _ _
  negate := by
    rintro part _ ⟨rfl, hpart⟩
    exact hasConstant_negate hpart

end Expression

namespace Script

open Expression Session

variable [Coordinate K] [Number V] [Cell S V] [Conversion K V]
variable {plan : Plan K V} {assignment : Assignment} {files : FileTree}
  {session before after : Session K V S}

/-- The right side of an assignment that names no file has a constant, if it has a value. -/
theorem agree_value_constant (hs : session.Constant files) {expression : Text}
    (hnames : ¬ NamesFile expression) :
    Run.Agree (Same files) (fun _ => True)
      (Shared fun found => found.1.isConstant = true ∧ found.2 = .constant) session session
      (plan.value expression : Run K V S (Operand K V S × Provenance)) (plan.value expression) := by
  have hfile : plan.isFileName session.files expression = false := by
    refine eq_false_of_ne_true fun hfile => hnames ?_
    exact namesFile_of_endsCaseless (endsCaseless_of_isFileName hfile)
  unfold Plan.value
  refine .get_bind ?_
  rw [if_neg (by simp [hfile])]
  unfold parse
  refine .get_bind ?_
  split
  next => exact .throw ⟨rfl, hs⟩ rfl
  next prepared hprepare =>
    have hnone := not_infix_of_prepare hprepare hnames
    refine (agree_evaluate (agrees_self hnone) (like_readChain_self _) ⟨rfl, hs⟩).mono ?_
    rintro _ _ ⟨part, _, ⟨rfl, hpart⟩, rfl, rfl⟩
    exact ⟨rfl, hpart, if_pos hpart⟩

omit [Conversion K V] in
/-- Binding a constant binds no grid and gives up no cells. -/
theorem constant_bound (hs : session.Constant files) {binding : Binding K V S}
    (hbinding : binding.IsConstant) : (bound session binding).Constant files := by
  refine ⟨hs.files, hs.logFile, fun other hother => ?_⟩
  obtain ⟨old, hold, rfl⟩ := List.mem_map.mp hother
  have hold : old.IsConstant := by
    rcases VariableTable.mem_bind hold with hold | rfl
    · exact hs.bindings old hold
    · exact VariableTable.isConstant_kept hbinding _
  exact ⟨(isConstant_released session.files old).trans hold.value, hold.provenance⟩

/-- An assignment whose right side names no file binds a constant, if it succeeds. -/
theorem agree_assign_constant (hs : session.Constant files)
    (hnames : ¬ NamesFile assignment.expression) :
    Run.Agree (Same files) (fun _ => True) (Shared Binding.IsConstant) session session
      (plan.assign assignment : Run K V S (Binding K V S)) (plan.assign assignment) := by
  unfold Plan.assign
  refine .bind (agree_value_constant hs hnames) ?_
  rintro ⟨value, provenance⟩ _ s t ⟨rfl, hvalue, rfl⟩ ⟨rfl, hs⟩
  have howned : Gives (fun owned => owned.isConstant = true)
      (Plan.unowned t.table assignment.name value) := by
    unfold Plan.unowned
    split
    next => exact (Operand.isConstant_copy value _).mono fun _ hcopy => hcopy.trans hvalue
    next => exact .pure hvalue
  refine .get_bind (.bind (.lift ⟨rfl, hs⟩ (.shared howned)) ?_)
  rintro owned _ s t ⟨rfl, howned⟩ h
  obtain ⟨c, rfl⟩ : ∃ c, owned = .constant c := by
    cases owned with
    | constant c => exact ⟨c, rfl⟩
    | grid g => cases howned
  obtain ⟨rfl, hs⟩ := h
  have hnew : (newBinding assignment .constant (.constant c) none : Binding K V S).IsConstant :=
    ⟨rfl, rfl⟩
  have hbound := constant_bound hs hnew
  have hgiven : (((bound t (newBinding assignment .constant (.constant c) none)).table.get?
      assignment.name).getD (newBinding assignment .constant (.constant c) none)).IsConstant := by
    cases hfound : (bound t (newBinding assignment .constant (.constant c) none)).table.get?
        assignment.name with
    | none => exact hnew
    | some binding => exact hbound.bindings _ (VariableTable.mem_of_get?_eq_some hfound).1
  exact .gives ⟨rfl, hgiven⟩ ⟨rfl, hbound⟩

omit [Coordinate K] [Cell S V] [Conversion K V] in
/-- A script starts without grids. -/
theorem constant_start (files : FileTree) : (start files : Session K V S).Constant files := by
  refine ⟨rfl, rfl, fun binding hbinding => ?_⟩
  rcases VariableTable.mem_bind hbinding with hnone | rfl
  · cases hnone
  · exact VariableTable.isConstant_kept ⟨rfl, rfl⟩ _

/-- A line keeps a session without grids, and binds a constant if it binds anything. -/
theorem agree_executeLine_constant (hs : session.Constant files) {line : Line}
    (hnames : ∀ assignment, Statement.ofText line.text = .ok (.assign assignment) →
      ¬ NamesFile assignment.expression) :
    Run.Agree (Same files) (fun _ => True) (Option.Rel (Shared Binding.IsConstant)) session session
      (plan.executeLine line) (plan.executeLine line) :=
  agree_executeLine (R := Same files) ⟨rfl, hs⟩ (fun record => ⟨rfl, hs.addRecord record⟩) rfl
    (fun _ _ => trivial) fun assignment hstatement =>
      agree_assign_constant (hs.addRecord _) (hnames assignment hstatement)

/-- No line of a script that is carried out names a file: of the lines that a run gets to, no right
side has the suffix of a file name in it. -/
def NoFileNamed (plan : Plan K V) (files : FileTree) (source : Text) : Prop :=
  ∀ front line back assignment (before : Session K V S),
    plan.prepareLines files source = .ok (front ++ line :: back) →
    Run.from? (start files) (plan.executeLines front) = (.ok (), before) →
    Statement.ofText line.text = .ok (.assign assignment) → ¬ NamesFile assignment.expression

/-- The lines of a script that names no file. -/
theorem agree_executeLines_constant {source : Text} {lines rest : List Line}
    (hlines : plan.prepareLines files source = .ok (lines ++ rest))
    (hnames : NoFileNamed (S := S) plan files source) :
    Run.Agree (S := S) (Same files) (fun _ => True) (fun _ _ => True) (start files) (start files)
      (plan.executeLines lines) (plan.executeLines lines) := by
  refine agree_executeLines (Q := Option.Rel (Shared Binding.IsConstant))
    ⟨rfl, constant_start files⟩ ?_
  rintro front line back before between rfl - hfront ⟨rfl, hs⟩
  refine agree_executeLine_constant hs fun assignment hstatement => ?_
  rw [List.append_assoc, List.cons_append] at hlines
  exact hnames front line (back ++ rest) assignment between hlines hfront hstatement

/-- A run of a script that names no file leaves the files as they were, and each assignment of it
that succeeds binds a constant. So it is whether the script completes or fails. -/
theorem run_constant (hdebug : plan.settings.debug = false) {source : Text}
    (hnames : NoFileNamed (S := S) plan files source) :
    ∃ outcome, ∃ final : Session K V S,
      Run.from? (start files) (plan.run source) = (outcome, final) ∧
      final.files = files ∧ (∀ binding ∈ final.table.bindings, binding.IsConstant) ∧
      ∀ front line back binding, ∀ before after : Session K V S,
        plan.prepareLines files source = .ok (front ++ line :: back) →
        Run.from? (start files) (plan.executeLines front) = (.ok (), before) →
        Run.from? before (plan.executeLine line) = (.ok (some binding), after) →
        binding.IsConstant := by
  have hfinal : (Run.from? (start files : Session K V S) (plan.run source)).2.Constant files := by
    cases hlines : plan.prepareLines files source with
    | error fault =>
        rw [from?_run_of_prepareLines_eq_error hlines]
        exact constant_start files
    | ok lines =>
        have hagree : Run.Agree (S := S) (Same files) _ _ (start files) (start files)
            (plan.executeLines lines) (plan.executeLines lines) :=
          agree_executeLines_constant (hlines.trans (by rw [List.append_nil])) hnames
        rw [from?_run_of_debug_eq_false hdebug hlines]
        rcases hrun : Run.from? (start files : Session K V S) (plan.executeLines lines) with
          ⟨fault | u, carried⟩
        · have hcarried := (Same.of_agree hagree hrun).1
          rw [from?_processing_of_executeLines_eq_error hrun]
          cases fault with
          | quietStop reason => exact hcarried.addRecord _
          | _ => exact hcarried
        · have hcarried := (Same.of_agree hagree hrun).1
          rw [from?_processing_of_executeLines_eq_ok hrun]
          exact hcarried.addRecord _
  refine ⟨_, _, rfl, hfinal.files, hfinal.bindings, ?_⟩
  intro front line back binding before after hlines hfront hline
  have hbefore := Same.of_agree (agree_executeLines_constant hlines hnames) hfront
  have hfound := (Same.of_agree (agree_executeLine_constant hbefore.1 fun assignment hstatement =>
    hnames front line back assignment before hlines hfront hstatement) hline).2 _ rfl
  cases hfound with
  | some hbinding => exact hbinding.2

/-- A sum, and the greater of it and a number with a minus sign. -/
def constantScript : Text := "A = 2 + 3\nB = -max(A, 7) / A\n".toList

/-- Results are rounded and come with metadata, and parts of expressions are recorded. -/
def recordingPlan : Plan Float Float where
  settings :=
    { writeIntermediate := true, addMetadata := true, roundResults := true, decimals := 2 }

theorem run_constantScript :
    recordingPlan.settings.debug = false ∧
      NoFileNamed (S := Float32) recordingPlan oneFile constantScript ∧
      ∃ outcome, ∃ final : Session Float Float Float32,
        Run.from? (start oneFile) (recordingPlan.run constantScript) = (outcome, final) ∧
        final.files = oneFile ∧ (∀ binding ∈ final.table.bindings, binding.IsConstant) ∧
        ∀ front line back binding, ∀ before after : Session Float Float Float32,
          recordingPlan.prepareLines oneFile constantScript = .ok (front ++ line :: back) →
          Run.from? (start oneFile) (recordingPlan.executeLines front) = (.ok (), before) →
          Run.from? before (recordingPlan.executeLine line) = (.ok (some binding), after) →
          binding.IsConstant := by
  have hnames : NoFileNamed (S := Float32) recordingPlan oneFile constantScript := by
    intro front line back assignment before hlines _ hstatement
    have hprepared : recordingPlan.prepareLines oneFile constantScript =
        .ok [⟨1, "A = 2 + 3".toList⟩, ⟨2, "B = -max(A, 7) / A".toList⟩] := by decide +kernel
    have hline : line = ⟨1, "A = 2 + 3".toList⟩ ∨ line = ⟨2, "B = -max(A, 7) / A".toList⟩ := by
      have hmem : line ∈ front ++ line :: back := by simp
      rw [← Except.ok.inj (hprepared.symm.trans hlines)] at hmem
      simpa using hmem
    rcases hline with rfl | rfl
    · have hread : Statement.ofText "A = 2 + 3".toList =
          .ok (.assign ⟨none, "A".toList, "2 + 3".toList⟩) := by decide +kernel
      cases hread.symm.trans hstatement
      decide +kernel
    · have hread : Statement.ofText "B = -max(A, 7) / A".toList =
          .ok (.assign ⟨none, "B".toList, "-max(A, 7) / A".toList⟩) := by decide +kernel
      cases hread.symm.trans hstatement
      decide +kernel
  exact ⟨rfl, hnames, run_constant rfl hnames⟩

end Script

end MapAlgebra
