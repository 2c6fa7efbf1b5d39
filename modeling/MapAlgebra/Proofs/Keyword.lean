import MapAlgebra.Proofs.Boundaries
import MapAlgebra.Proofs.Mentions
import MapAlgebra.Proofs.Settled

/-!
# The keyword for no data, bound or not

Scripts begin with the keyword for no data bound to a constant. An expression is evaluated alike
with and without that binding: where the keyword travels as a placeholder in the one evaluation it
travels as a token in the other one, and both become the same part under the same token.
-/

namespace MapAlgebra

open Expression

variable {K V S : Type}

namespace Expression

open Script (IsVariable)

/-- The characters of expressions without paths of files: ASCII letters, digits, underscores and
points, blanks, and what operators, groups and calls are written with. -/
def isExpressive (c : Char) : Bool :=
  Text.isBlank c || c.isAlphanum || c == '_' || c == '.' || Operator.startsSign c || c == '(' ||
    c == ')' || c == ','

/-- A character of tokens other than the mark of placeholders, or one that ends tokens. -/
structure IsApart (c : Char) : Prop where
  ascii : c.toNat < 128
  unmarked : c ≠ '#'
  plain : isTokenChar c = false → isPlain c = false

theorem isApart_of_isExpressive {c : Char} (hblank : Text.isBlank c = false)
    (h : isExpressive c) : IsApart c := by
  have hascii : c.toNat < 128 := by
    simp only [isExpressive, hblank, Bool.false_or, Bool.or_eq_true, beq_iff_eq] at h
    have hsigns : ['^', '*', '/', '+', '-', '=', '!', '<', '>', '&', '|'].all
        fun d => d.toNat < 128 := by decide
    rcases h with (((((halnum | rfl) | rfl) | hsign) | rfl) | rfl) | rfl
    · rcases Bool.or_eq_true_iff.mp halnum with hletter | hdigit
      · exact ascii_of_isAlpha hletter
      · have hcode : 48 ≤ c.toNat ∧ c.toNat ≤ 57 := by
          simpa [Char.isDigit, UInt32.le_iff_toNat_le] using hdigit
        omega
    · decide
    · decide
    · simpa using List.all_eq_true.mp hsigns c (List.contains_iff_mem.mp hsign)
    all_goals decide
  have hall : c ≠ '#' ∧ (isTokenChar c = false → isPlain c = false) := by
    refine Text.forall_ascii (p := fun c => Text.isBlank c = false → isExpressive c →
      c ≠ '#' ∧ (isTokenChar c = false → isPlain c = false)) (by decide +kernel) hascii hblank h
  exact ⟨hascii, hall.1, hall.2⟩

theorem isApart_squeeze {source : Text} (h : ∀ c ∈ source, isExpressive c) :
    ∀ c ∈ Text.squeeze source, IsApart c := by
  intro c hc
  obtain ⟨hmem, hblank⟩ := List.mem_filter.mp hc
  exact isApart_of_isExpressive (by simpa using hblank) (h c hmem)

section FileNames

/-- What begins behind characters that it does not begin with is part of the rest. -/
theorem suffix_of_not_mem {c : Char} {tail front text : Text} (hc : c ∉ front)
    (h : c :: tail <:+ front ++ text) : c :: tail <:+ text := by
  induction front with
  | nil => exact h
  | cons d front ih =>
      rw [List.mem_cons, not_or] at hc
      rcases List.suffix_cons_iff.mp h with heq | h
      · exact absurd (List.cons.inj heq).1 hc.1
      · exact ih hc.2 h

/-- What ends a text and does not reach to a character ends the rest behind it. -/
theorem suffix_of_suffix_append_cons {c : Char} {front back tail : Text} (hc : c ∉ back)
    (h : back <:+ front ++ c :: tail) : back <:+ tail := by
  rcases List.suffix_or_suffix_of_suffix h (List.suffix_append front (c :: tail)) with h | h
  · rcases List.suffix_cons_iff.mp h with rfl | h
    · exact absurd List.mem_cons_self hc
    · exact h
  · exact absurd (h.subset List.mem_cons_self) hc

/-- Behind a mark of placeholders there is nothing that a token goes on with, or a placeholder is
told to its end. -/
theorem behind_mark {spots : List Spot} (hapart : spots.IsChain Spot.Apart)
    (hchars : ∀ c ∈ sourceOf spots, IsApart c) {behind : Text}
    (h : '#' :: behind <:+ shownOf spots) :
    (∀ c ∈ behind.head?, isPlain c = false) ∨
      ∃ digits rest, behind = digits ++ '#' :: rest ∧ ∀ c ∈ digits, Text.isDigit c := by
  induction spots with
  | nil => simp at h
  | cons spot spots ih =>
      have hrest := ih hapart.tail fun c hc => hchars c (by simp [hc])
      rw [shownOf_cons] at h
      cases spot with
      | char c =>
          rcases List.suffix_cons_iff.mp h with heq | h
          · have hc : IsApart c := hchars c (by simp [Spot.source])
            exact absurd (List.cons.inj heq).1.symm hc.unmarked
          · exact hrest h
      | name index spelled =>
          have hdigits : ∀ c ∈ Nat.toDigits 10 index, Text.isDigit c := fun c hc =>
            isDigit_of_isDigit (Nat.isDigit_of_mem_toDigits (by decide) (by decide) hc)
          have hshown : (Spot.name index spelled).shown ++ shownOf spots =
              '#' :: (Nat.toDigits 10 index ++ '#' :: shownOf spots) := by
            simp [Spot.shown, placeholder]
          rw [hshown] at h
          rcases List.suffix_cons_iff.mp h with heq | h
          · exact .inr ⟨_, _, (List.cons.inj heq).2, hdigits⟩
          · have hmark : '#' ∉ Nat.toDigits 10 index := fun hmem => by
              cases isDigit_mark.symm.trans (hdigits _ hmem)
            have hbehind := suffix_of_not_mem hmark h
            rcases List.suffix_cons_iff.mp hbehind with heq | h
            · refine .inl ?_
              rw [(List.cons.inj heq).2]
              cases spots with
              | nil => simp
              | cons next spots =>
                  cases next with
                  | name => exact (List.isChain_cons_cons.mp hapart).1.elim
                  | char d =>
                      have hd : IsApart d := hchars d (by simp [Spot.source])
                      intro c hc
                      cases hc
                      exact hd.plain (List.isChain_cons_cons.mp hapart).1.1
            · exact hrest h

/-- In expressions without paths no name is replaced in the name of a file. -/
theorem keepsFileNames {source : Text} {names : List Text}
    (hsource : ∀ c ∈ Text.squeeze source, IsApart c) (hnames : ∀ name ∈ names, IsVariable name) :
    KeepsFileNames names source := by
  intro prepared hprepare token htoken hfile hmark
  obtain ⟨spots, hspots⟩ := exists_hasSpots hnames source (Text.squeeze source)
  rw [← prepare_eq_ok hprepare] at hspots
  obtain ⟨front, rest, hwhole, wanted, -, hread⟩ := Visits.first.reads_chain token htoken
  -- the name ends behind the last mark
  obtain ⟨number, behind, rfl, hlast⟩ : ∃ number behind, token = number ++ '#' :: behind ∧
      '#' ∉ behind := by
    obtain ⟨behind, number, heq, hlast⟩ :=
      List.eq_append_cons_of_mem (List.mem_reverse.mpr hmark)
    refine ⟨number.reverse, behind.reverse, ?_, by simpa using hlast⟩
    simpa using congrArg List.reverse heq
  have hpoint : '.' ∈ behind := by
    have hsuffix := Text.endsCaseless_iff.mp hfile
    rw [Text.lowerAscii, List.map_append, List.map_cons] at hsuffix
    have hpoint := (suffix_of_suffix_append_cons (by decide) hsuffix).subset
      (List.mem_cons_self : '.' ∈ idfSuffix)
    obtain ⟨c, hc, hlower⟩ := List.mem_map.mp hpoint
    exact eq_point_of_toLower hlower ▸ hc
  have hbehind : '#' :: (behind ++ rest) <:+ shownOf spots := by
    rw [hspots.shown, hwhole]
    exact ⟨front ++ number, by simp⟩
  rcases behind_mark hspots.apart (hspots.source ▸ hsource) hbehind with
    hend | ⟨digits, more, heq, hdigits⟩
  · obtain ⟨c, behind, rfl⟩ := List.exists_cons_of_ne_nil (List.ne_nil_of_mem hpoint)
    have hcontinues : continuesToken wanted (number ++ ['#']) c :=
      continuesToken_of_readToken hread (List.append_assoc number ['#'] (c :: behind)).symm
    rcases of_continuesToken hcontinues with hplain | ⟨-, hnil⟩ | ⟨-, hawaits⟩
    · rw [hend c rfl] at hplain
      cases hplain
    · simp at hnil
    · exact not_awaitsSign_of_foreign ⟨'#', by simp, by decide⟩ hawaits
  · have hnumber : ∀ c ∈ behind, Text.isDigit c := by
      rcases List.append_eq_append_iff.mp heq with ⟨left, rfl, -⟩ | ⟨left, rfl, hleft⟩
      · exact fun c hc => hdigits c (List.mem_append_left _ hc)
      · cases left with
        | nil => simpa using hdigits
        | cons c left =>
            obtain rfl := (List.cons.inj hleft).1
            simp at hlast
    exact absurd (hnumber _ hpoint) (by decide)

end FileNames

end Expression

namespace VariableTable

variable [Number V] {table table' : VariableTable K V S} {names : List Text} {name : Text}

/-- The binding of the keyword for no data with its value at a slot. -/
def keywordAt (slot : Nat) : Binding K V S :=
  { (Script.keyword : Binding K V S) with
    value := .constant { Constant.ofKeyword with slot := some slot } }

/-- The first table is the second one with the keyword for no data bound at some place in it, its
value kept apart from the others. -/
def AddsKeyword (table table' : VariableTable K V S) : Prop :=
  ∃ front back slot, table.bindings = front ++ keywordAt slot :: back ∧
    table'.bindings = front ++ back ∧ ∀ binding ∈ table'.bindings, binding.value.slot ≠ some slot

/-- Binding the keyword adds it behind the other names. -/
theorem addsKeyword_bind (hfree : table.get? Constant.nodataName = none) (hfresh : table.Fresh) :
    (table.bind Script.keyword).AddsKeyword table := by
  have hcontains : table.contains (Script.keyword : Binding K V S).name = false := by
    unfold contains
    rw [show (Script.keyword : Binding K V S).name = Constant.nodataName from rfl, hfree]
    rfl
  refine ⟨table.bindings, [], table.nextSlot, ?_, by simp, fun binding hbinding hslot => ?_⟩
  · rw [bindings_bind, hcontains, if_neg Bool.false_ne_true]
    rfl
  · obtain ⟨slot, hlt, hsome⟩ := hfresh binding hbinding
    rw [hslot] at hsome
    exact absurd hlt (by simp [Option.some.inj hsome])

theorem AddsKeyword.mem_or (h : table.AddsKeyword table') {binding : Binding K V S}
    (hbinding : binding ∈ table.bindings) :
    binding.name = Constant.nodataName ∨ binding ∈ table'.bindings := by
  obtain ⟨front, back, slot, hbindings, hbindings', -⟩ := h
  rw [hbindings] at hbinding
  rw [hbindings']
  rcases List.mem_append.mp hbinding with hmem | hmem
  · exact .inr (List.mem_append_left _ hmem)
  · rcases List.mem_cons.mp hmem with rfl | hmem
    · exact .inl rfl
    · exact .inr (List.mem_append_right _ hmem)

theorem AddsKeyword.mem (h : table.AddsKeyword table') {binding : Binding K V S}
    (hbinding : binding ∈ table'.bindings) : binding ∈ table.bindings := by
  obtain ⟨front, back, slot, hbindings, hbindings', -⟩ := h
  rw [hbindings'] at hbinding
  rw [hbindings]
  rcases List.mem_append.mp hbinding with hmem | hmem
  · exact List.mem_append_left _ hmem
  · exact List.mem_append_right _ (List.mem_cons_of_mem _ hmem)

theorem AddsKeyword.get?_eq (h : table.AddsKeyword table') (hname : key name ≠ nodataKey) :
    table.get? name = table'.get? name := by
  obtain ⟨front, back, slot, hbindings, hbindings', -⟩ := h
  have hother : ¬ (key (keywordAt slot : Binding K V S).name == key name) = true := by
    rw [beq_iff_eq]
    exact hname.symm
  unfold get?
  rw [hbindings, hbindings', List.find?_append, List.find?_append]
  exact congrArg (Option.or _) (List.find?_cons_of_neg hother)

omit [Number V] in
/-- A value at another slot leaves what a name finds. -/
theorem get?_update_of_ne {value : Operand K V S} (h : table.slot? name ≠ value.slot) :
    (table.update value).get? name = table.get? name := by
  rw [get?_update]
  cases hbinding : table.get? name with
  | none => rfl
  | some binding =>
      rw [Mirrors.slot?_eq hbinding] at h
      rw [Option.map_some, if_neg fun hsame => h hsame.2]

/-- The first table has the keyword for no data bound, kept apart from the values of some other
names, and mirrors the second one for those. -/
structure Keyed (names : List Text) (table table' : VariableTable K V S) : Prop where
  mirrors : table.Mirrors names table'
  keyword : ∃ slot binding, table.get? Constant.nodataName = some binding ∧
    binding.name = Constant.nodataName ∧
    binding.value = .constant { Constant.ofKeyword with slot := some slot } ∧
      ∀ name ∈ names, table.slot? name ≠ some slot

/-- A table with the keyword added mirrors the other one for all other names. -/
theorem AddsKeyword.keyed (h : table.AddsKeyword table')
    (hplain : ∀ binding ∈ table'.bindings, '#' ∉ binding.name)
    (hfree : table'.get? Constant.nodataName = none)
    (hothers : ∀ name ∈ names, key name ≠ nodataKey) : table.Keyed names table' := by
  have hget (name : Text) (hname : name ∈ names) := h.get?_eq (hothers name hname)
  have hmarks : ∀ binding ∈ table.bindings, '#' ∉ binding.name := by
    intro binding hbinding
    rcases h.mem_or hbinding with hname | hmem
    · rw [hname]
      decide
    · exact hplain binding hmem
  obtain ⟨front, back, slot, hbindings, hbindings', hslot⟩ := h
  refine ⟨⟨⟨fun name hname => ?_, fun name hname other hother => ?_⟩, hmarks⟩,
    slot, keywordAt slot, ?_, rfl, rfl, fun name hname hsome => ?_⟩
  · rw [hget name hname]
    cases table'.get? name with
    | none => exact .none
    | some binding => exact .some ⟨rfl, rfl⟩
  · unfold Share slot?
    rw [hget name hname, hget other hother]
  · unfold get? at hfree ⊢
    rw [hbindings', List.find?_append, Option.or_eq_none_iff] at hfree
    rw [hbindings, List.find?_append, hfree.1, Option.none_or]
    exact List.find?_cons_of_pos (beq_self_eq_true _)
  · unfold slot? at hsome
    rw [hget name hname] at hsome
    obtain ⟨binding, hbinding, hvalue⟩ := Option.bind_eq_some_iff.mp hsome
    exact hslot binding (mem_of_get?_eq_some hbinding).1 hvalue

namespace Keyed

theorem update (h : table.Keyed names table') (hname : name ∈ names)
    {value value' : Operand K V S} (hslot : table.slot? name = value.slot)
    (hslot' : table'.slot? name = value'.slot) (hvalue : value'.unkept = value.unkept) :
    (table.update value).Keyed names (table'.update value') := by
  obtain ⟨slot, binding, hbinding, hspelled, hconstant, hapart⟩ := h.keyword
  refine ⟨h.mirrors.update hname hslot hslot' hvalue, slot, binding, ?_, hspelled, hconstant, ?_⟩
  · rw [get?_update_of_ne, hbinding]
    rw [Mirrors.slot?_eq hbinding, hconstant, ← hslot]
    exact (hapart name hname).symm
  · intro other hother
    rw [slot?_update]
    exact hapart other hother

/-- Keeping the keyword as it is changes nothing. -/
theorem update_keyword (h : table.Keyed names table') {binding : Binding K V S}
    (hbinding : table.get? Constant.nodataName = some binding) :
    (table.update binding.value).Keyed names table' := by
  obtain ⟨slot, _, hfound, hspelled, hconstant, hapart⟩ := h.keyword
  cases hbinding.symm.trans hfound
  have hslot : binding.value.slot = some slot := by
    rw [hconstant]
    rfl
  refine ⟨⟨⟨fun name hname => ?_, fun name hname other hother => ?_⟩, fun other hother => ?_⟩,
    slot, binding, ?_, hspelled, hconstant, fun name hname => ?_⟩
  · rw [get?_update_of_ne (hslot ▸ hapart name hname)]
    exact h.mirrors.agree.bound name hname
  · unfold Share
    simp only [slot?_update]
    exact h.mirrors.agree.shared name hname other hother
  · obtain ⟨old, hold, hsame⟩ := name_mem_update hother
    exact hsame ▸ h.mirrors.plain old hold
  · rw [get?_update, hbinding, Option.map_some]
    split <;> rfl
  · rw [slot?_update]
    exact hapart name hname

/-- Names that spell one token are read alike. -/
theorem readAlike (h : table.Keyed names table') {token name name' : Text} (htoken : token ∈ names)
    (hname : key name = key token) (hname' : key name' = key token) :
    Matching (Binding.ReadAlike (Keyed names) table table') (table.item name)
      (table'.item name') := by
  refine (h.mirrors.item htoken hname hname').mono fun binding binding' hbound => ?_
  obtain ⟨hbinding, hbinding', hspelled, hplain, hsame⟩ := hbound
  refine ⟨hspelled, hplain, hsame, fun value value' hslot hslot' => ?_⟩
  exact h.update htoken ((Mirrors.slot?_eq hbinding).trans hslot.symm)
    ((Mirrors.slot?_eq hbinding').trans hslot'.symm)

end Keyed

end VariableTable

namespace Expression

open Script (IsVariable)
open VariableTable (Keyed)

variable [Coordinate K] [Number V] [Cell S V] {s t : Session K V S}

/-- The names of an expression but the keyword for no data. -/
def otherNames (source : Text) : List Text :=
  (wholeTokens (Text.squeeze source)).filter fun token => VariableTable.key token ≠ nodataKey

/-- What the keyword is bound to is what it stands for where it is not bound. -/
theorem agree_readKeyword {heed : Fault → Prop} {scope : Scope K V} {names : List Text}
    {name : Text}
    (hname : VariableTable.key name = nodataKey) (hst : s.Over (Keyed names) t) :
    Run.Agree (Session.Over (Keyed names)) heed Part.Same s t (scope.readVariable name)
      (pure ⟨.constant Constant.ofKeyword, .constant, Constant.nodataName⟩) := by
  obtain ⟨slot, binding, hbinding, hspelled, hconstant, -⟩ := hst.related.keyword
  have hitem : s.table.item name = .ok binding :=
    VariableTable.item_eq_ok_iff.mpr ((s.table.get?_of_key_eq hname).trans hbinding)
  have hload : binding.value.load s.files = .ok binding.value := by
    rw [hconstant]
    rfl
  have hkept : substituteNodata scope.settings binding.value = binding.value := by
    rw [hconstant]
    rfl
  have hread : Run.from? s (scope.readVariable name) =
      (.ok ⟨binding.value, .constant, Constant.nodataName⟩,
        { s with table := s.table.update binding.value }) := by
    refine readVariable_eq_ok.mpr ⟨binding, binding.value, hitem, hload, ?_, by rw [hkept]⟩
    rw [hkept, hspelled, hconstant]
    rfl
  have htwin : binding.value.Twin (.constant Constant.ofKeyword) := by
    rw [hconstant]
    exact .constant Constant.ofKeyword _ none
  have hplain : '#' ∉ Constant.nodataName := by decide
  unfold Run.Agree
  rw [hread]
  refine .gives ⟨htwin, rfl, rfl, hplain⟩ ?_
  exact hst.withTables (hst.related.update_keyword hbinding)

/-- Two tables, one of them with the keyword added, look up the names of an expression: the keyword
is the only name that the other one lacks. -/
theorem looksUp_of_keyed {heed : Fault → Prop} {settings : Settings K V} {source : Text}
    {prepared prepared' : Prepared} {names names' : List Text}
    (hsource : ∀ c ∈ Text.squeeze source, c.toNat < 128)
    (hfree : ∀ name ∈ names', VariableTable.key name ≠ nodataKey)
    (hadds : ∀ name ∈ names, VariableTable.key name ≠ nodataKey → name ∈ names') :
    LooksUp (S := S) (Keyed (otherNames source)) heed source names names' ⟨settings, prepared⟩
      ⟨settings, prepared'⟩ where
  both {_ _ token _ name'} hst htoken hmem' hname hname' := by
    have hother : VariableTable.key token ≠ nodataKey := hname' ▸ hfree name' hmem'
    have hmem : token ∈ otherNames source := List.mem_filter.mpr ⟨htoken, by simpa using hother⟩
    exact agree_readVariable rfl hst (hst.related.readAlike hmem hname hname')
  first {token name} htoken hmem hname hnone := by
    have hkey : VariableTable.key token = nodataKey := by
      by_contra hother
      exact hnone name (hadds name hmem (hname ▸ hother)) hname
    have hascii : ∀ c ∈ token, c.toNat < 128 := fun c hc =>
      hsource c (mem_of_mem_wholeTokens htoken c hc)
    exact ⟨⟨hascii, beq_iff_eq.mpr hkey⟩, agree_readKeyword (hname.trans hkey)⟩

/-- It makes no difference to an expression whether the keyword for no data is bound, as it is in
scripts, or not. Over a table with the keyword added it has the same value, at the same cost in
numbers, and leaves the same behind, or it fails in the same way. -/
theorem parse_of_addsKeyword [Conversion K V] {settings : Settings K V} {source : Text}
    {session : Session K V S} {table : VariableTable K V S}
    (hsource : ∀ c ∈ source, isExpressive c)
    (hnames : ∀ binding ∈ session.table.bindings, IsVariable binding.name)
    (hfree : session.table.get? Constant.nodataName = none)
    (hadds : table.AddsKeyword session.table) :
    (∀ value provenance after,
      Run.from? { session with table } (parse settings source) = (.ok (value, provenance), after) →
        ∃ value' table', value'.unkept = value.unkept ∧
          Run.from? session (parse settings source) =
            (.ok (value', provenance), { after with table := table' })) ∧
    ∀ fault after,
      Run.from? { session with table } (parse settings source) = (.error fault, after) →
      ∃ fault' table', fault'.kind = fault.kind ∧
        Run.from? session (parse settings source) =
          (.error fault', { after with table := table' }) := by
  have hchars := isApart_squeeze hsource
  have hkey : VariableTable.key Constant.nodataName = nodataKey := by decide +kernel
  have hnames' : ∀ binding ∈ table.bindings, IsVariable binding.name := by
    intro binding hbinding
    rcases hadds.mem_or hbinding with hname | hmem
    · rw [hname]
      decide +kernel
    · exact hnames binding hmem
  have hst : Session.Over (Keyed (otherNames source)) { session with table } session := by
    refine .intro (hadds.keyed (fun binding hbinding => ?_) hfree fun name hname => ?_)
    · exact mark_not_mem_of_isVariable (hnames binding hbinding)
    · simpa using (List.mem_filter.mp hname).2
  have hlooks (prepared prepared' : Prepared) : LooksUp (S := S) (Keyed (otherNames source))
      (fun _ => True) source table.namesLongestFirst session.table.namesLongestFirst
      ⟨settings, prepared⟩ ⟨settings, prepared'⟩ := by
    refine looksUp_of_keyed (fun c hc => (hchars c hc).ascii) (fun name hname hsame => ?_)
      fun name hname hother => ?_
    · obtain ⟨binding, hbinding, rfl⟩ := mem_namesLongestFirst.mp hname
      exact List.find?_eq_none.mp hfree binding hbinding (beq_iff_eq.mpr (hsame.trans hkey.symm))
    · obtain ⟨binding, hbinding, rfl⟩ := mem_namesLongestFirst.mp hname
      rcases hadds.mem_or hbinding with hnodata | hmem
      · exact absurd (hnodata ▸ hkey) hother
      · exact mem_namesLongestFirst.mpr ⟨binding, hmem, rfl⟩
  have hbound (token : Text) (h : (session.table.get? token).isSome) :
      (table.get? token).isSome := by
    obtain ⟨binding, hbinding, hspelled⟩ := List.find?_isSome.mp h
    exact List.find?_isSome.mpr ⟨binding, hadds.mem hbinding, hspelled⟩
  exact outcomes_parse (fun c hc => ⟨(hchars c hc).ascii, (hchars c hc).unmarked⟩) hnames' hnames
    (fun token _ => hbound token) (keepsFileNames hchars (isVariable_of_mem_names hnames')) hlooks
    hst

/-- A variable behind the keyword, as scripts bind it. -/
def behindKeyword : Session Float Float Float32 :=
  let session : Session Float Float Float32 := Script.start markedFile
  { session with table := session.table.bind (one "A".toList) }

/-- The same variable with no keyword in front of it. -/
def beforeKeyword : Session Float Float Float32 :=
  { behindKeyword with table := { behindKeyword.table with
    bindings := behindKeyword.table.bindings.drop 1 } }

/-- A product with the keyword, in letters of its own. -/
def withoutData : Text := "A * noData".toList

/-- The product is the same with the keyword bound and without. -/
theorem parse_of_addsKeyword_withoutData :
    (∀ c ∈ withoutData, isExpressive c) ∧
    (∀ binding ∈ beforeKeyword.table.bindings, IsVariable binding.name) ∧
    beforeKeyword.table.get? Constant.nodataName = none ∧
    behindKeyword.table.AddsKeyword beforeKeyword.table ∧
    ∃ value provenance after value' table', value'.unkept = value.unkept ∧
      Run.from? { beforeKeyword with table := behindKeyword.table } (parse {} withoutData) =
        (.ok (value, provenance), after) ∧
      Run.from? beforeKeyword (parse {} withoutData) =
        (.ok (value', provenance), { after with table := table' }) := by
  have hsource : ∀ c ∈ withoutData, isExpressive c := List.all_eq_true.mp (by decide +kernel)
  have hnames : ∀ binding ∈ beforeKeyword.table.bindings, IsVariable binding.name := by
    decide +kernel
  have hfree : beforeKeyword.table.get? Constant.nodataName = none := by
    have hkey : ¬ (VariableTable.key "A".toList == VariableTable.key Constant.nodataName) := by
      decide +kernel
    exact (List.find?_singleton ..).trans (if_neg hkey)
  have hadds : behindKeyword.table.AddsKeyword beforeKeyword.table := by
    refine ⟨[], beforeKeyword.table.bindings, 0, rfl, rfl, fun binding hbinding hslot => ?_⟩
    obtain rfl := List.mem_singleton.mp hbinding
    cases hslot
  let scope : Scope Float Float := ⟨{}, ⟨withoutData, "#1#*#0#".toList,
    [("#0#".toList, "NoData".toList), ("#1#".toList, "A".toList)]⟩⟩
  have horder : behindKeyword.table.namesLongestFirst = ["NoData".toList, "A".toList] :=
    List.mergeSort_of_pairwise (by decide +kernel)
  have hprepare : prepare withoutData behindKeyword.table.namesLongestFirst =
      .ok scope.prepared := by
    rw [horder]
    decide +kernel
  have htext : scope.prepared.text = placeholder 1 ++ (Operator.multiply.sign ++ placeholder 0) :=
    rfl
  have hvariable : Run.from? behindKeyword (scope.resolveToken "#1#".toList) =
      (.ok ⟨.constant { Constant.of (1 : Float) with slot := some 1 }, .constant, "A".toList⟩,
        behindKeyword) := rfl
  have hkeyword : Run.from? { behindKeyword with counter := 1 }
      (scope.resolveToken "#0#".toList) =
        (.ok ⟨.constant { Constant.ofKeyword with slot := some 0 }, .constant,
          Constant.nodataName⟩, { behindKeyword with counter := 1 }) := rfl
  obtain ⟨hexists, -⟩ := parse_pair_eq_ok hprepare htext (isToken_placeholder 1)
    (not_awaitsSign_placeholder 1) (isToken_placeholder 0) (by decide) hvariable hkeyword rfl
  obtain ⟨provenance, after, hrun⟩ := hexists rfl
  obtain ⟨value', table', hvalue, hrun'⟩ :=
    (parse_of_addsKeyword hsource hnames hfree hadds).1 _ _ _ hrun
  exact ⟨hsource, hnames, hfree, hadds, _, provenance, after, value', table', hvalue, hrun, hrun'⟩

end Expression

end MapAlgebra
