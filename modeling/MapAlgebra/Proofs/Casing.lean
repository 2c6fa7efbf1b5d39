import MapAlgebra.Proofs.Constants
import MapAlgebra.Proofs.Words

/-!
# Letter case in expressions

The case of ASCII letters makes no difference to how an expression is prepared and what its tokens
are. The same names are found at the same places, a token is the same number or keyword in both
cases, and the placeholders of names have no letters.
-/

namespace MapAlgebra.Expression

/-- Texts that differ in the case of letters. -/
abbrev RecasedTexts : Text → Text → Prop :=
  List.Forall₂ Recased

theorem toUpper_of_not_isAlpha {c : Char} (h : c.isAlpha = false) : c.toUpper = c := by
  unfold Char.toUpper
  split
  next hlower =>
    have hletter : c.isLower = true := by
      unfold Char.isLower
      simpa using hlower
    change (c.isUpper || c.isLower) = false at h
    rw [hletter, Bool.or_true] at h
    cases h
  next => rfl

theorem toUpper_toLower {c : Char} (h : c.isAlpha) :
    c.toUpper.isAlpha ∧ c.toUpper.toLower = c.toLower ∧ c.toLower.toUpper = c.toUpper :=
  Text.forall_ascii (p := fun c => c.isAlpha → c.toUpper.isAlpha ∧
    c.toUpper.toLower = c.toLower ∧ c.toLower.toUpper = c.toUpper) (by decide +kernel)
    (ascii_of_isAlpha h) h

namespace Recased

variable {c d : Char} {x y : Text}

/-- Characters with one upper case are one character or a letter in its two cases. -/
theorem of_toUpper_eq (h : c.toUpper = d.toUpper) : Recased c d := by
  by_cases hc : c.isAlpha <;> by_cases hd : d.isAlpha
  · refine .inr ⟨hc, hd, ?_⟩
    rw [← (toUpper_toLower hc).2.1, h, (toUpper_toLower hd).2.1]
  · have hupper := (toUpper_toLower hc).1
    rw [h, toUpper_of_not_isAlpha (eq_false_of_ne_true hd)] at hupper
    exact absurd hupper hd
  · have hupper := (toUpper_toLower hd).1
    rw [← h, toUpper_of_not_isAlpha (eq_false_of_ne_true hc)] at hupper
    exact absurd hupper hc
  · rw [toUpper_of_not_isAlpha (eq_false_of_ne_true hc),
      toUpper_of_not_isAlpha (eq_false_of_ne_true hd)] at h
    exact .inl h

/-- What is the same for all letters is the same in both cases. -/
theorem apply_eq {α : Type} {f : Char → α} {a : α}
    (hletters : ∀ n < 128, (Char.ofNat n).isAlpha → f (Char.ofNat n) = a) (h : Recased c d) :
    f c = f d := by
  have hletter {c : Char} (hc : c.isAlpha) : f c = a :=
    Text.forall_ascii (p := fun c => c.isAlpha → f c = a) hletters (ascii_of_isAlpha hc) hc
  rcases h with rfl | ⟨hc, hd, -⟩
  · rfl
  · rw [hletter hc, hletter hd]

theorem isBlank_eq (h : Recased c d) : Text.isBlank c = Text.isBlank d :=
  h.apply_eq (a := false) (by decide +kernel)

theorem isTokenChar_eq (h : Recased c d) : isTokenChar c = isTokenChar d :=
  h.apply_eq (a := true) (by decide +kernel)

theorem upperChar_eq (h : Recased c d) : Text.upperChar c = Text.upperChar d := by
  rcases h with rfl | ⟨hc, hd, hlower⟩
  · rfl
  · unfold Text.upperChar
    rw [if_pos (ascii_of_isAlpha hc), if_pos (ascii_of_isAlpha hd), ← (toUpper_toLower hc).2.2,
      hlower, (toUpper_toLower hd).2.2]

/-- A letter may stand for one of a name in both cases or in none. -/
theorem sameLetter_eq (wanted : Char) (h : Recased c d) :
    Text.sameLetter wanted c = Text.sameLetter wanted d := by
  rcases h with rfl | ⟨hc, hd, hlower⟩
  · rfl
  unfold Text.sameLetter
  split
  next =>
    have hlower : Text.lowerChar c = Text.lowerChar d := by
      unfold Text.lowerChar
      rw [if_pos (ascii_of_isAlpha hc), if_pos (ascii_of_isAlpha hd), hlower]
    rw [hlower]
  next hcased =>
    have hne {c : Char} (hc : c.isAlpha) : (wanted == c) = false := by
      refine beq_eq_false_iff_ne.mpr fun heq => hcased ?_
      rw [heq]
      exact Text.forall_ascii (p := fun c => c.isAlpha → Text.isCased c) (by decide +kernel)
        (ascii_of_isAlpha hc) hc
    rw [hne hc, hne hd]

end Recased

/-- The digits behind the point that a text may begin with, and the rest. -/
def fractionOf (text : Text) : Text × Text :=
  match text with
  | '.' :: tail => Text.span Text.isDigit tail
  | _ => ([], text)

theorem unsignedDecimal?_def (text : Text) :
    Reading.unsignedDecimal? text =
      let whole := (Text.span Text.isDigit text).1
      let fraction := (fractionOf (Text.span Text.isDigit text).2).1
      if whole.isEmpty && fraction.isEmpty then none
      else
        match (fractionOf (Text.span Text.isDigit text).2).2 with
        | [] => some (Text.digitsValue (whole ++ fraction), -(fraction.length : Int))
        | c :: tail =>
            if c == 'e' || c == 'E' then
              (Reading.exponent? tail).map fun exponent =>
                (Text.digitsValue (whole ++ fraction), exponent - fraction.length)
            else none := rfl

/-- Pieces of texts that differ in the case of letters. -/
inductive Piece.Recased : Piece → Piece → Prop
  | char {c d : Char} (hcd : Expression.Recased c d) : Piece.Recased (.char c) (.char d)
  | name {spelled spelled' : Text} : Piece.Recased (.name spelled) (.name spelled')

namespace RecasedTexts

variable {x y : Text}

/-- Texts with one upper case differ in the case of letters. -/
theorem of_upperAscii_eq (h : Text.upperAscii x = Text.upperAscii y) : RecasedTexts x y := by
  unfold Text.upperAscii at h
  induction x generalizing y with
  | nil =>
      obtain rfl : y = [] := List.map_eq_nil_iff.mp h.symm
      exact .nil
  | cons c x ih =>
      obtain ⟨d, y, rfl, hcd, hxy⟩ := List.map_eq_cons_iff.mp h.symm
      exact .cons (.of_toUpper_eq hcd.symm) (ih hxy.symm)

theorem upper_eq (h : RecasedTexts x y) : Text.upper x = Text.upper y := by
  unfold Text.upper
  induction h with
  | nil => rfl
  | cons hcd _ ih => rw [List.flatMap_cons, List.flatMap_cons, hcd.upperChar_eq, ih]

theorem squeeze (h : RecasedTexts x y) : RecasedTexts (Text.squeeze x) (Text.squeeze y) := by
  induction h with
  | nil => exact .nil
  | @cons c d x y hcd _ ih =>
      unfold Text.squeeze at ih ⊢
      rw [List.filter_cons, List.filter_cons, hcd.isBlank_eq]
      split
      next => exact .cons hcd ih
      next => exact ih

theorem symm (h : RecasedTexts x y) : RecasedTexts y x :=
  h.flip.imp fun _ _ => Recased.symm

/-- A text without letters is the same in both cases. -/
theorem eq_of_not_isAlpha (h : RecasedTexts x y) (hx : ∀ c ∈ x, c.isAlpha = false) : x = y := by
  induction h with
  | nil => rfl
  | cons hcd _ ih =>
      rw [hcd.eq_of_not_isAlpha (hx _ List.mem_cons_self),
        ih fun c hc => hx c (List.mem_cons_of_mem _ hc)]

theorem placeholder_iff (h : RecasedTexts x y) (index : Nat) :
    x = placeholder index ↔ y = placeholder index := by
  have hletters : ∀ c ∈ placeholder index, c.isAlpha = false := by
    intro c hc
    rcases mark_or_isDigit_of_mem hc with rfl | hdigit
    · decide
    · refine eq_false_of_ne_true fun hletter => ?_
      have hdigit := isDigit_of_isDigit hdigit
      rw [not_isDigit_of_isAlpha hletter] at hdigit
      cases hdigit
  constructor
  · rintro rfl
    exact (h.eq_of_not_isAlpha hletters).symm
  · rintro rfl
    exact (h.symm.eq_of_not_isAlpha hletters).symm

section Numbers

/-- Digits in front of a text are the same in both cases. -/
theorem span_isDigit (h : RecasedTexts x y) :
    (Text.span Text.isDigit x).1 = (Text.span Text.isDigit y).1 ∧
      RecasedTexts (Text.span Text.isDigit x).2 (Text.span Text.isDigit y).2 := by
  unfold Text.span
  induction h with
  | nil => exact ⟨rfl, .nil⟩
  | @cons c d x y hcd h ih =>
      dsimp only at ih ⊢
      rw [List.takeWhile_cons, List.takeWhile_cons, List.dropWhile_cons, List.dropWhile_cons,
        ← hcd.isDigit_eq]
      split
      next hdigit =>
        rw [hcd.eq_of_isDigit hdigit, ih.1]
        exact ⟨rfl, ih.2⟩
      next => exact ⟨rfl, .cons hcd h⟩

theorem sign (h : RecasedTexts x y) :
    (Reading.sign x).1 = (Reading.sign y).1 ∧
      RecasedTexts (Reading.sign x).2 (Reading.sign y).2 := by
  cases h with
  | nil => exact ⟨rfl, .nil⟩
  | @cons c d x y hcd h =>
      by_cases hsign : c = '-' ∨ c = '+'
      · obtain rfl : c = d := by
          rcases hsign with rfl | rfl <;> exact hcd.eq_of_not_isAlpha (by decide)
        rcases hsign with rfl | rfl <;> exact ⟨rfl, h⟩
      · have hsign' : ¬ (d = '-' ∨ d = '+') := by
          intro hd
          refine hsign ?_
          rcases hd with rfl | rfl
          · exact .inl (hcd.symm.eq_of_not_isAlpha (by decide)).symm
          · exact .inr (hcd.symm.eq_of_not_isAlpha (by decide)).symm
        have hplain {e : Char} (he : ¬ (e = '-' ∨ e = '+')) (text : Text) :
            Reading.sign (e :: text) = (false, e :: text) := by
          unfold Reading.sign
          split
          next heq => exact absurd (.inl (List.cons.inj heq).1) he
          next heq => exact absurd (.inr (List.cons.inj heq).1) he
          next => rfl
        rw [hplain hsign, hplain hsign']
        exact ⟨rfl, .cons hcd h⟩

theorem exponent?_eq (h : RecasedTexts x y) : Reading.exponent? x = Reading.exponent? y := by
  obtain ⟨hnegative, hdigits⟩ := h.sign
  unfold Reading.exponent?
  generalize Reading.sign x = left, Reading.sign y = right at hnegative hdigits ⊢
  obtain ⟨negative, digits⟩ := left
  obtain ⟨negative', digits'⟩ := right
  dsimp only at hnegative hdigits ⊢
  subst hnegative
  have hall : digits.all Text.isDigit = digits'.all Text.isDigit := by
    induction hdigits with
    | nil => rfl
    | cons hcd _ ih => rw [List.all_cons, List.all_cons, hcd.isDigit_eq, ih]
  by_cases hdigit : digits.all Text.isDigit
  · have hsame : digits = digits' := by
      refine eq_of_not_isAlpha hdigits fun c hc => eq_false_of_ne_true fun hletter => ?_
      have hdigit := List.all_eq_true.mp hdigit c hc
      rw [not_isDigit_of_isAlpha hletter] at hdigit
      cases hdigit
    rw [hsame]
  · rw [if_pos (by simp [hdigit]), if_pos (by simp [← hall, hdigit])]

theorem fractionOf (h : RecasedTexts x y) :
    (fractionOf x).1 = (fractionOf y).1 ∧ RecasedTexts (fractionOf x).2 (fractionOf y).2 := by
  have hplain {c : Char} (hc : c ≠ '.') (text : Text) :
      Expression.fractionOf (c :: text) = ([], c :: text) := by
    unfold Expression.fractionOf
    split
    next heq => exact absurd (List.cons.inj heq).1 hc
    next => rfl
  cases h with
  | nil => exact ⟨rfl, .nil⟩
  | @cons c d x y hcd h =>
      by_cases hpoint : c = '.'
      · subst hpoint
        obtain rfl : '.' = d := hcd.eq_of_not_isAlpha (by decide)
        exact span_isDigit h
      · have hpoint' : d ≠ '.' := by
          rintro rfl
          exact hpoint (hcd.symm.eq_of_not_isAlpha (by decide)).symm
        rw [hplain hpoint, hplain hpoint']
        exact ⟨rfl, .cons hcd h⟩

theorem unsignedDecimal?_eq (h : RecasedTexts x y) :
    Reading.unsignedDecimal? x = Reading.unsignedDecimal? y := by
  obtain ⟨hwhole, hrest⟩ := h.span_isDigit
  obtain ⟨hfraction, hrest⟩ := hrest.fractionOf
  rw [unsignedDecimal?_def, unsignedDecimal?_def, ← hwhole, ← hfraction]
  generalize (Expression.fractionOf (Text.span Text.isDigit x).2).2 = rest,
    (Expression.fractionOf (Text.span Text.isDigit y).2).2 = rest' at hrest ⊢
  cases hrest with
  | nil => rfl
  | @cons c d rest rest' hcd hrest =>
      have hletter : (c == 'e' || c == 'E') = (d == 'e' || d == 'E') := by
        rw [Bool.eq_iff_iff]
        simpa using hcd.isExponent_iff
      dsimp only
      rw [hletter, exponent?_eq hrest]

end Numbers

section Tokens

theorem of_alike (h : Alike Recased (fun _ _ => False) x y) : RecasedTexts x y := by
  rcases h.forall₂_or_name with h | ⟨_, _, _, _, _, _, -, -, hfalse, -⟩
  · exact h
  · exact hfalse.elim

theorem areRead : AreRead Recased fun _ _ => False :=
  ⟨id, False.elim⟩

theorem signedName (h : RecasedTexts x y) :
    (signedName x).1 = (signedName y).1 ∧ RecasedTexts (signedName x).2 (signedName y).2 := by
  obtain ⟨hnegated, hname⟩ := signedName_alike areRead (.of_forall₂ h)
  exact ⟨hnegated, of_alike hname⟩

theorem literal?_eq {V : Type} [Number V] (h : RecasedTexts x y) :
    (literal? x : Option V) = literal? y := by
  obtain ⟨hnegative, hbody⟩ := h.sign
  unfold literal?
  dsimp only
  rw [hnegative, hbody.unsignedDecimal?_eq]

theorem isNodataToken_eq (h : RecasedTexts x y) : isNodataToken x = isNodataToken y := by
  unfold isNodataToken
  rw [h.upper_eq]

theorem endsCaseless_eq (h : RecasedTexts x y) (ending : Text) :
    Text.endsCaseless ending x = Text.endsCaseless ending y := by
  unfold Text.endsCaseless
  rw [Recased.lowerAscii_eq h]

end Tokens

section Names

variable {before before' : Option Char}

/-- Text behind a name is found in both cases or in none. -/
theorem dropCaseless? (name : Text) (h : RecasedTexts x y) :
    Option.Rel RecasedTexts (Text.dropCaseless? name x) (Text.dropCaseless? name y) := by
  induction name generalizing x y with
  | nil => exact .some h
  | cons wanted name ih =>
      cases h with
      | nil => exact .none
      | cons hcd h =>
          rw [Text.dropCaseless?, Text.dropCaseless?, hcd.sameLetter_eq]
          split
          next => exact ih h
          next => exact .none

theorem behindName? (name : Text) (hbefore : Option.Rel Recased before before')
    (h : RecasedTexts x y) :
    Option.Rel RecasedTexts (behindName? name before x) (behindName? name before' y) := by
  have hany : before.any isTokenChar = before'.any isTokenChar := by
    cases hbefore with
    | none => rfl
    | some hcd => exact hcd.isTokenChar_eq
  have hdropped := h.dropCaseless? name
  unfold Expression.behindName?
  rw [hany]
  split
  next => exact .none
  next =>
    generalize Text.dropCaseless? name x = found, Text.dropCaseless? name y = found' at hdropped ⊢
    cases hdropped with
    | none => exact .none
    | @some rest rest' hrest =>
        have hhead : (rest.head?.any fun c => isTokenChar c || c == '(') =
            rest'.head?.any fun c => isTokenChar c || c == '(' := by
          cases hrest with
          | nil => rfl
          | @cons c d _ _ hcd _ =>
              have hopen : (c == '(') = (d == '(') :=
                hcd.apply_eq (f := (· == '(')) (a := false) (by decide +kernel)
              show (isTokenChar c || c == '(') = (isTokenChar d || d == '(')
              rw [hcd.isTokenChar_eq, hopen]
        dsimp only
        rw [hhead]
        split
        next => exact .none
        next => exact .some hrest

theorem behindName?_eq_none {name : Text} (hbefore : Option.Rel Recased before before')
    (h : RecasedTexts x y) (hnone : Expression.behindName? name before x = none) :
    Expression.behindName? name before' y = none := by
  have hfound := h.behindName? name hbefore
  rw [hnone] at hfound
  generalize Expression.behindName? name before' y = found at hfound ⊢
  cases hfound
  rfl

theorem exists_behindName? {name rest : Text} (hbefore : Option.Rel Recased before before')
    (h : RecasedTexts x y) (hsome : Expression.behindName? name before x = some rest) :
    ∃ rest', Expression.behindName? name before' y = some rest' ∧ RecasedTexts rest rest' := by
  have hfound := h.behindName? name hbefore
  rw [hsome] at hfound
  generalize Expression.behindName? name before' y = found at hfound ⊢
  cases hfound with
  | some hrest => exact ⟨_, rfl, hrest⟩

theorem getElem? (h : RecasedTexts x y) (index : Nat) : Option.Rel Recased x[index]? y[index]? := by
  induction h generalizing index with
  | nil => exact .none
  | cons hcd _ ih =>
      cases index with
      | zero => exact .some hcd
      | succ index => exact ih index

/-- A name is found at the same places. -/
theorem cut (name : Text) (hbefore : Option.Rel Recased before before') (h : RecasedTexts x y) :
    List.Forall₂ Piece.Recased (cut name before x) (cut name before' y) := by
  fun_induction Expression.cut name before x generalizing before' y with
  | case1 before hsome =>
      obtain ⟨rest, hrest⟩ := Option.isSome_iff_exists.mp hsome
      obtain ⟨rest', hrest', -⟩ := exists_behindName? hbefore h hrest
      cases h
      rw [Expression.cut, hrest']
      exact .cons .name .nil
  | case2 before hnone =>
      have hnone' := behindName?_eq_none hbefore h (by simpa using hnone)
      cases h
      rw [Expression.cut, hnone']
      exact .nil
  | case3 before c tail hnone ih =>
      have hnone' := behindName?_eq_none hbefore h hnone
      cases h with
      | cons hcd h =>
          rw [cut_of_behindName?_eq_none hnone']
          exact .cons (.char hcd) (ih (.some hcd) h)
  | case4 before c tail rest hsome hname ih =>
      obtain ⟨rest', hsome', -⟩ := exists_behindName? hbefore h hsome
      cases h with
      | cons hcd h =>
          rw [Expression.cut]
          split
          next heq => cases heq.symm.trans hsome'
          next =>
            rw [if_pos hname]
            exact .cons .name (.cons (.char hcd) (ih (.some hcd) h))
  | case5 before c tail rest hsome hname ih =>
      obtain ⟨rest', hsome', hrest⟩ := exists_behindName? hbefore h hsome
      have hlast := getElem? h (name.length - 1)
      cases h with
      | cons hcd h =>
          rw [cut_of_behindName?_eq_some (by simpa using hname) hsome']
          exact .cons .name (ih hlast hrest)

end Names

end RecasedTexts

/-- Expressions with the same names at the same places, in texts that differ in the case of
letters. -/
structure Prepared.Recased (prepared prepared' : Prepared) : Prop where
  text : RecasedTexts prepared.text prepared'.text
  names : prepared'.names = prepared.names

namespace Prepared.Recased

variable {prepared prepared' : Prepared}

theorem substitute (h : prepared.Recased prepared') (index : Nat) (name : Text) :
    (prepared.substitute (placeholder index) name).Recased
      (prepared'.substitute (placeholder index) name) := by
  have hpieces : List.Forall₂ Piece.Recased (cut name none prepared.text)
      (cut name none prepared'.text) :=
    h.text.cut name .none
  have hany : (cut name none prepared.text).any Piece.isName =
      (cut name none prepared'.text).any Piece.isName := by
    generalize cut name none prepared.text = pieces, cut name none prepared'.text = pieces'
      at hpieces
    induction hpieces with
    | nil => rfl
    | cons hpiece _ ih =>
        rw [List.any_cons, List.any_cons, ih]
        cases hpiece <;> rfl
  unfold Prepared.substitute
  dsimp only
  rw [hany]
  split
  next =>
    refine ⟨?_, congrArg (· ++ [(placeholder index, name)]) h.names⟩
    dsimp only
    generalize cut name none prepared.text = pieces, cut name none prepared'.text = pieces'
      at hpieces
    induction hpieces with
    | nil => exact .nil
    | cons hpiece _ ih =>
        rw [List.flatMap_cons, List.flatMap_cons]
        refine List.rel_append ?_ ih
        cases hpiece with
        | char hcd => exact .cons hcd .nil
        | name => exact List.forall₂_same.mpr fun c _ => .inl rfl
  next => exact h

theorem substituteAll (h : prepared.Recased prepared') (names : List Text) :
    (prepared.substituteAll names).Recased (prepared'.substituteAll names) := by
  unfold Prepared.substituteAll
  generalize names.zipIdx = entries
  induction entries generalizing prepared prepared' with
  | nil => exact h
  | cons entry entries ih => exact ih (h.substitute entry.2 entry.1)

/-- A token stands for the same name in both cases. -/
theorem name?_eq (h : prepared.Recased prepared') {source : Text} {names : List Text}
    (hprepare : prepare source names = .ok prepared) {a b : Text} (hab : RecasedTexts a b) :
    prepared'.name? b = prepared.name? a := by
  have hsame (token : Text) : prepared'.name? token = prepared.name? token := by
    unfold Prepared.name?
    rw [h.names]
  rw [hsame]
  cases ha : prepared.name? a with
  | some name =>
      obtain ⟨index, rfl⟩ := exists_placeholder_of_name? hprepare ha
      rw [(hab.placeholder_iff index).mp rfl, ha]
  | none =>
      cases hb : prepared.name? b with
      | none => rfl
      | some name =>
          obtain ⟨index, rfl⟩ := exists_placeholder_of_name? hprepare hb
          rw [(hab.placeholder_iff index).mpr rfl, hb] at ha
          cases ha

end Prepared.Recased

namespace RecasedTexts

variable {x y : Text}

theorem toOption_depthBehind (h : RecasedTexts x y) (whole whole' : Text) (depth position : Nat) :
    (depthBehind whole depth position x).toOption =
      (depthBehind whole' depth position y).toOption := by
  induction h generalizing depth position with
  | nil => rfl
  | @cons c d x y hcd _ ih =>
      have hother {c : Char} (hc : ¬ (c = '(' ∨ c = ')')) (whole text : Text) :
          depthBehind whole depth position (c :: text) =
            depthBehind whole depth (position + 1) text := by
        rw [depthBehind]
        · exact fun h => hc (.inl h)
        · exact fun h => hc (.inr h)
      by_cases hc : c = '(' ∨ c = ')'
      · obtain rfl : c = d := by
          rcases hc with rfl | rfl <;> exact hcd.eq_of_not_isAlpha (by decide)
        rcases hc with rfl | rfl
        · exact ih (depth + 1) (position + 1)
        · cases depth with
          | zero => rfl
          | succ depth => exact ih depth (position + 1)
      · have hd : ¬ (d = '(' ∨ d = ')') := by
          intro hd
          obtain rfl : d = c := by
            rcases hd with rfl | rfl <;> exact hcd.symm.eq_of_not_isAlpha (by decide)
          exact hc hd
        rw [hother hc, hother hd]
        exact ih depth (position + 1)

theorem toOption_checkParentheses (h : RecasedTexts x y) :
    (checkParentheses x).toOption = (checkParentheses y).toOption := by
  have hdepth := h.toOption_depthBehind x y 0 1
  unfold checkParentheses
  generalize depthBehind x 0 1 x = found, depthBehind y 0 1 y = found' at hdepth ⊢
  rcases found with fault | depth <;> rcases found' with fault' | depth'
  · rfl
  · cases hdepth
  · cases hdepth
  · obtain rfl : depth = depth' := Option.some.inj hdepth
    cases depth <;> rfl

/-- Two expressions that differ in the case of letters are both refused or both prepared, with the
same names at the same places. -/
theorem prepare (h : RecasedTexts x y) (names : List Text) :
    (∃ fault fault', prepare x names = .error fault ∧ prepare y names = .error fault') ∨
      ∃ prepared prepared', prepare x names = .ok prepared ∧ prepare y names = .ok prepared' ∧
        prepared.Recased prepared' := by
  have hsqueeze := h.squeeze
  have hempty : (Text.squeeze x).isEmpty = (Text.squeeze y).isEmpty := by
    generalize Text.squeeze x = text, Text.squeeze y = text' at hsqueeze
    cases hsqueeze <;> rfl
  have hparentheses := hsqueeze.toOption_checkParentheses
  unfold Expression.prepare
  dsimp only
  rw [hempty]
  split
  next => exact .inl ⟨_, _, rfl, rfl⟩
  next =>
    generalize checkParentheses (Text.squeeze x) = found,
      checkParentheses (Text.squeeze y) = found' at hparentheses ⊢
    rcases found with fault | ⟨⟩ <;> rcases found' with fault' | ⟨⟩
    · exact .inl ⟨fault, fault', rfl, rfl⟩
    · cases hparentheses
    · cases hparentheses
    · have hbefore : Prepared.Recased { source := x, text := Text.squeeze x }
        { source := y, text := Text.squeeze y } := ⟨hsqueeze, rfl⟩
      exact .inr ⟨_, _, rfl, rfl, hbefore.substituteAll names⟩

end RecasedTexts

end MapAlgebra.Expression
