import MapAlgebra.Expression.Function
import MapAlgebra.Proofs.Agreement
import MapAlgebra.Proofs.Grammar
import MapAlgebra.Proofs.Pairs

/-!
# Texts that are read alike

Two texts that differ in the letter case of some characters and in some names are read as chains of
one shape: a name is taken into a token as a whole and ends none, and it is none of a number or a
function. The placeholders of variables are such names whatever their numbers.
-/

namespace MapAlgebra.Expression

/-- A character and itself, or a letter in its two cases. -/
def Recased (c d : Char) : Prop :=
  c = d ∨ c.isAlpha ∧ d.isAlpha ∧ c.toLower = d.toLower

/-- A character of tokens that stands neither in a number nor in the name of a function. -/
def isForeign (c : Char) : Bool :=
  isPlain c && !(Text.isDigit c || c == '.' || c == 'e' || c == 'E') &&
    Function.all.all fun function => !function.name.toList.contains c.toLower

/-- A name that a token takes in as a whole, and that makes it neither a number nor the name of a
function. -/
structure IsInert (name : Text) : Prop where
  plain : ∀ c ∈ name, isPlain c
  foreign : ∃ c ∈ name, isForeign c

/-- Texts of related characters in the same places, but for related names in the same places. -/
inductive Alike (C : Char → Char → Prop) (W : Text → Text → Prop) : Text → Text → Prop
  | nil : Alike C W [] []
  | char {c d : Char} {x y : Text} (hcd : C c d) (h : Alike C W x y) :
      Alike C W (c :: x) (d :: y)
  | name {a b x y : Text} (hab : W a b) (h : Alike C W x y) : Alike C W (a ++ x) (b ++ y)

/-- Characters and names that make no difference for reading. -/
structure AreRead (C : Char → Char → Prop) (W : Text → Text → Prop) : Prop where
  chars : ∀ {c d}, C c d → Recased c d
  names : ∀ {a b}, W a b → IsInert a ∧ IsInert b

theorem ascii_of_isAlpha {c : Char} (h : c.isAlpha) : c.toNat < 128 := by
  unfold Char.isAlpha Char.isUpper Char.isLower at h
  simp only [Bool.or_eq_true, Bool.and_eq_true, decide_eq_true_eq] at h
  rcases h with ⟨-, h⟩ | ⟨-, h⟩
  · exact Nat.lt_of_le_of_lt (UInt32.le_iff_toNat_le.mp h) (by decide)
  · exact Nat.lt_of_le_of_lt (UInt32.le_iff_toNat_le.mp h) (by decide)

theorem not_isDigit_of_isAlpha {c : Char} (h : c.isAlpha) : Text.isDigit c = false :=
  Text.forall_ascii (p := fun c => c.isAlpha → Text.isDigit c = false) (by decide +kernel)
    (ascii_of_isAlpha h) h

namespace Recased

variable {c d : Char} {x y : Text}

theorem symm (h : Recased c d) : Recased d c :=
  h.imp Eq.symm fun ⟨hc, hd, hlower⟩ => ⟨hd, hc, hlower.symm⟩

theorem eq_or_isPlain (h : Recased c d) : c = d ∨ isPlain c ∧ isPlain d :=
  h.imp_right fun ⟨hc, hd, _⟩ => ⟨isPlain_of_isAlpha hc, isPlain_of_isAlpha hd⟩

theorem toLower_eq (h : Recased c d) : c.toLower = d.toLower := by
  rcases h with rfl | ⟨-, -, hlower⟩
  · rfl
  · exact hlower

/-- What is no letter is the same in both cases. -/
theorem eq_of_not_isAlpha (h : Recased c d) (hc : c.isAlpha = false) : c = d := by
  refine h.resolve_right fun ⟨hletter, _⟩ => ?_
  rw [hc] at hletter
  cases hletter

theorem eq_of_isDigit (h : Recased c d) (hc : Text.isDigit c) : c = d := by
  refine h.resolve_right fun ⟨hletter, _⟩ => ?_
  rw [not_isDigit_of_isAlpha hletter] at hc
  cases hc

theorem isDigit_eq (h : Recased c d) : Text.isDigit c = Text.isDigit d := by
  rcases h with rfl | ⟨hc, hd, -⟩
  · rfl
  · rw [not_isDigit_of_isAlpha hc, not_isDigit_of_isAlpha hd]

/-- The letter of an exponent is one in both cases. -/
theorem isExponent_iff (h : Recased c d) : (c = 'e' ∨ c = 'E') ↔ (d = 'e' ∨ d = 'E') := by
  have hlower {c : Char} (hc : c.isAlpha) : (c = 'e' ∨ c = 'E') ↔ c.toLower = 'e' :=
    Text.forall_ascii (p := fun c => (c = 'e' ∨ c = 'E') ↔ c.toLower = 'e') (by decide +kernel)
      (ascii_of_isAlpha hc)
  rcases h with rfl | ⟨hc, hd, heq⟩
  · exact Iff.rfl
  · rw [hlower hc, hlower hd, heq]

/-- A number without an exponent is the same in both cases. -/
theorem eq_of_isPointed (h : List.Forall₂ Recased x y) (hx : IsPointed x) : x = y := by
  have hchars := hx.isDigit_or_point
  clear hx
  induction h with
  | nil => rfl
  | @cons c d x y hcd _ ih =>
      have hc : c = d := by
        rcases hchars c List.mem_cons_self with hdigit | rfl
        · exact hcd.eq_of_isDigit hdigit
        · exact hcd.eq_of_not_isAlpha (by decide)
      rw [hc, ih fun d hd => hchars d (List.mem_cons_of_mem _ hd)]

theorem lowerAscii_eq (h : List.Forall₂ Recased x y) : Text.lowerAscii x = Text.lowerAscii y := by
  induction h with
  | nil => rfl
  | cons hcd _ ih => exact List.cons_eq_cons.mpr ⟨hcd.toLower_eq, ih⟩

theorem isMantissa (h : List.Forall₂ Recased x y) (hx : IsMantissa x) : IsMantissa y := by
  obtain @⟨number, letter, hnumber, hletter⟩ := hx
  have hfront := (List.forall₂_take_append y number [letter] h.flip).flip
  have hback := (List.forall₂_drop_append y number [letter] h.flip).flip
  rw [← List.take_append_drop number.length y, ← eq_of_isPointed hfront hnumber]
  generalize y.drop number.length = back at hback ⊢
  cases hback with
  | cons hcd hnil =>
      cases hnil
      exact .intro hnumber ((isExponent_iff hcd).mp hletter)

theorem awaitsSign (h : List.Forall₂ Recased x y) (hx : AwaitsSign x) : AwaitsSign y := by
  obtain ⟨negated, mantissa, hmantissa, rfl⟩ := hx
  cases negated with
  | false => exact ⟨false, y, isMantissa h hmantissa, rfl⟩
  | true =>
      cases h with
      | @cons _ d _ y hcd h =>
          obtain rfl : '-' = d := hcd.eq_of_not_isAlpha (by decide)
          exact ⟨true, y, isMantissa h hmantissa, rfl⟩

end Recased

namespace IsInert

variable {name : Text}

theorem ne_nil (h : IsInert name) : name ≠ [] := by
  rintro rfl
  obtain ⟨c, hc, -⟩ := h.foreign
  cases hc

/-- An inert name begins with a plain character. -/
theorem exists_cons (h : IsInert name) : ∃ c rest, name = c :: rest ∧ isPlain c := by
  obtain ⟨c, rest, rfl⟩ := List.exists_cons_of_ne_nil h.ne_nil
  exact ⟨c, rest, rfl, h.plain c List.mem_cons_self⟩

end IsInert

namespace Alike

variable {C : Char → Char → Prop} {W : Text → Text → Prop} {x y x' y' : Text}

/-- Texts of related characters are alike. -/
theorem of_forall₂ (h : List.Forall₂ C x y) : Alike C W x y := by
  induction h with
  | nil => exact .nil
  | cons hcd _ ih => exact .char hcd ih

/-- A text is like itself. -/
theorem of_chars (h : ∀ c ∈ x, C c c) : Alike C W x x :=
  .of_forall₂ (List.forall₂_same.mpr h)

theorem append (h : Alike C W x y) (h' : Alike C W x' y') : Alike C W (x ++ x') (y ++ y') := by
  induction h with
  | nil => exact h'
  | char hcd _ ih => exact .char hcd ih
  | name hab _ ih =>
      rw [List.append_assoc, List.append_assoc]
      exact .name hab ih

theorem of_name {a b : Text} (hab : W a b) : Alike C W a b := by
  have h : Alike C W (a ++ []) (b ++ []) := .name hab .nil
  rwa [List.append_nil, List.append_nil] at h

theorem symm (h : Alike C W x y) : Alike (flip C) (flip W) y x := by
  induction h with
  | nil => exact .nil
  | char hcd _ ih => exact .char hcd ih
  | name hab _ ih => exact .name hab ih

theorem mono {W' : Text → Text → Prop} (hW : ∀ {a b}, W a b → W' a b) (h : Alike C W x y) :
    Alike C W' x y := by
  induction h with
  | nil => exact .nil
  | char hcd _ ih => exact .char hcd ih
  | name hab _ ih => exact .name (hW hab) ih

/-- Texts are alike character by character unless there is a name in both. -/
theorem forall₂_or_name (h : Alike C W x y) : List.Forall₂ C x y ∨
    ∃ front a back front' b back', x = front ++ (a ++ back) ∧ y = front' ++ (b ++ back') ∧
      W a b ∧ Alike C W front front' ∧ Alike C W back back' := by
  induction h with
  | nil => exact .inl .nil
  | @char c d x y hcd h ih =>
      rcases ih with ih | ⟨front, a, back, front', b, back', rfl, rfl, hab, hfront, hback⟩
      · exact .inl (.cons hcd ih)
      · exact .inr ⟨c :: front, a, back, d :: front', b, back', rfl, rfl, hab, .char hcd hfront,
          hback⟩
  | name hab h => exact .inr ⟨[], _, _, [], _, _, rfl, rfl, hab, .nil, h⟩

end Alike

namespace AreRead

variable {C : Char → Char → Prop} {W : Text → Text → Prop} {x y y' : Text} {c : Char}

theorem symm (hread : AreRead C W) : AreRead (flip C) (flip W) :=
  ⟨fun h => (hread.chars h).symm, fun h => (hread.names h).symm⟩

/-- Two texts that are alike begin with one character, or with two that are taken into tokens. -/
inductive Heads (C : Char → Char → Prop) (W : Text → Text → Prop) : Text → Text → Prop
  | nil : Heads C W [] []
  | same {c : Char} {x y : Text} (h : Alike C W x y) : Heads C W (c :: x) (c :: y)
  | plain {c d : Char} {x y : Text} (hc : isPlain c) (hd : isPlain d) : Heads C W (c :: x) (d :: y)

variable (hread : AreRead C W)
include hread

theorem heads (h : Alike C W x y) : Heads C W x y := by
  cases h with
  | nil => exact .nil
  | char hcd h =>
      rcases (hread.chars hcd).eq_or_isPlain with rfl | ⟨hc, hd⟩
      · exact .same h
      · exact .plain hc hd
  | name hab h =>
      obtain ⟨ha, hb⟩ := hread.names hab
      obtain ⟨c, a, rfl, hc⟩ := ha.exists_cons
      obtain ⟨d, b, rfl, hd⟩ := hb.exists_cons
      exact .plain hc hd

theorem isEmpty_eq (h : Alike C W x y) : x.isEmpty = y.isEmpty := by
  cases hread.heads h <;> rfl

/-- What no token takes in stands in front of both texts or of none. -/
theorem head?_eq_iff (hc : isPlain c = false) (h : Alike C W x y) :
    x.head? = some c ↔ y.head? = some c := by
  cases hread.heads h with
  | nil => exact Iff.rfl
  | same => exact Iff.rfl
  | @plain d d' _ _ hd hd' =>
      have hne {d : Char} (hd : isPlain d) : d ≠ c := by
        rintro rfl
        rw [hc] at hd
        cases hd
      simp [hne hd, hne hd']

theorem of_cons (hc : isPlain c = false) (h : Alike C W (c :: x) y') :
    ∃ y, y' = c :: y ∧ Alike C W x y := by
  have hheads := hread.heads h
  generalize hx : c :: x = x' at hheads
  cases hheads with
  | nil => cases hx
  | same h =>
      cases hx
      exact ⟨_, rfl, h⟩
  | plain hplain =>
      cases hx
      rw [hc] at hplain
      cases hplain

/-- Texts are alike character by character unless foreign characters stand in both. -/
theorem forall₂_or_foreign (h : Alike C W x y) :
    List.Forall₂ Recased x y ∨ (∃ c ∈ x, isForeign c) ∧ ∃ c ∈ y, isForeign c := by
  rcases h.forall₂_or_name with h | ⟨front, a, back, front', b, back', rfl, rfl, hab, -, -⟩
  · exact .inl (h.imp fun _ _ => hread.chars)
  · obtain ⟨⟨-, c, hc, hforeign⟩, ⟨-, c', hc', hforeign'⟩⟩ := hread.names hab
    exact .inr ⟨⟨c, by simp [hc], hforeign⟩, c', by simp [hc'], hforeign'⟩

end AreRead

/-- What has a foreign character in it does not await a sign. -/
theorem not_awaitsSign_of_foreign {text : Text} (h : ∃ c ∈ text, isForeign c) :
    ¬ AwaitsSign text := by
  obtain ⟨c, hc, hforeign⟩ := h
  rintro ⟨negated, mantissa, ⟨hnumber, hletter⟩, rfl⟩
  simp only [List.mem_append, List.mem_singleton] at hc
  rcases hc with hminus | hdigits | rfl
  · cases negated with
    | false => cases hminus
    | true =>
        obtain rfl := List.mem_singleton.mp hminus
        revert hforeign
        decide
  · rcases hnumber.isDigit_or_point c hdigits with hdigit | rfl
    · simp [isForeign, hdigit] at hforeign
    · revert hforeign
      decide
  · rcases hletter with rfl | rfl
    · revert hforeign
      decide
    · revert hforeign
      decide

section Reading

variable {C : Char → Char → Prop} {W : Text → Text → Prop} {x y token token' wanted : Text}
  (hread : AreRead C W)
include hread

theorem awaitsExponent_eq (h : Alike C W token token') :
    awaitsExponent token = awaitsExponent token' := by
  rw [Bool.eq_iff_iff, awaitsExponent_iff, awaitsExponent_iff]
  rcases hread.forall₂_or_foreign h with h | ⟨hforeign, hforeign'⟩
  · exact ⟨Recased.awaitsSign h, Recased.awaitsSign (h.flip.imp fun _ _ h => Recased.symm h)⟩
  · exact ⟨fun h => absurd h (not_awaitsSign_of_foreign hforeign),
      fun h => absurd h (not_awaitsSign_of_foreign hforeign')⟩

theorem continuesToken_eq (hwanted : Closes wanted) (h : Alike C W token token') {c d : Char}
    (hcd : C c d) : continuesToken wanted token c = continuesToken wanted token' d := by
  rcases (hread.chars hcd).eq_or_isPlain with rfl | ⟨hc, hd⟩
  · unfold continuesToken
    rw [hread.isEmpty_eq h, awaitsExponent_eq hread h]
  · rw [continuesToken_of_isPlain hwanted.not_plain hc,
      continuesToken_of_isPlain hwanted.not_plain hd]

/-- Tokens are read from the same places. -/
theorem alike_readToken (hwanted : Closes wanted) (htoken : Alike C W token token')
    (h : Alike C W x y) :
    Alike C W (readToken wanted token x).1 (readToken wanted token' y).1 ∧
      Alike C W (readToken wanted token x).2 (readToken wanted token' y).2 := by
  induction h generalizing token token' with
  | nil => exact ⟨htoken, .nil⟩
  | char hcd h ih =>
      rw [readToken, readToken, continuesToken_eq hread hwanted htoken hcd]
      split
      next => exact ih (htoken.append (.char hcd .nil))
      next => exact ⟨htoken, .char hcd h⟩
  | name hab _ ih =>
      obtain ⟨ha, hb⟩ := hread.names hab
      rw [readToken_plain hwanted.not_plain ha.plain, readToken_plain hwanted.not_plain hb.plain]
      exact ih (htoken.append (.of_name hab))

omit hread in
/-- A plain character stands in no sign. -/
theorem ofSign?_of_isPlain {c : Char} (hc : isPlain c) {text : Text} (h : c ∈ text) :
    Operator.ofSign? text = none := by
  rw [← Option.not_isSome_iff_eq_none]
  intro hsome
  obtain ⟨op, hop⟩ := Option.isSome_iff_exists.mp hsome
  rw [eq_sign_of_ofSign? hop] at h
  rw [isPlain_sign op c h] at hc
  cases hc

omit hread in
theorem leadingOperator?_plain {c : Char} (hc : isPlain c) (text : Text) :
    leadingOperator? (c :: text) = none := by
  have hsign (rest : Text) : Operator.ofSign? (c :: rest) = none :=
    ofSign?_of_isPlain hc List.mem_cons_self
  cases text <;> simp [leadingOperator?, hsign]

omit hread in
theorem leadingOperator?_before_plain (c : Char) {d : Char} (hd : isPlain d) (text : Text) :
    leadingOperator? (c :: d :: text) = (Operator.ofSign? [c]).map (·, d :: text) := by
  have hlong : Operator.ofSign? [c, d] = none := ofSign?_of_isPlain hd (by simp)
  unfold leadingOperator?
  dsimp only
  rw [hlong]

/-- Operators are read from the same places. -/
theorem alike_leadingOperator? (h : Alike C W x y) :
    Option.Rel (fun a b => a.1 = b.1 ∧ Alike C W a.2 b.2) (leadingOperator? x)
      (leadingOperator? y) := by
  have hmap {front front' : Text} (found : Option Operator) (h : Alike C W front front') :
      Option.Rel (fun a b => a.1 = b.1 ∧ Alike C W a.2 b.2) (found.map (·, front))
        (found.map (·, front')) := by
    cases found with
    | none => exact .none
    | some op => exact .some ⟨rfl, h⟩
  cases hread.heads h with
  | nil => exact .none
  | plain hc hd =>
      rw [leadingOperator?_plain hc, leadingOperator?_plain hd]
      exact .none
  | @same c x y hbehind =>
      cases hread.heads hbehind with
      | nil => exact hmap _ .nil
      | plain hd hd' =>
          rw [leadingOperator?_before_plain c hd, leadingOperator?_before_plain c hd']
          exact hmap _ hbehind
      | @same d x y hrest =>
          unfold leadingOperator?
          dsimp only
          cases hop : Operator.ofSign? [c, d] with
          | none => exact hmap _ hbehind
          | some op => exact .some ⟨rfl, hrest⟩

theorem endsChain_eq (hwanted : Closes wanted) (h : Alike C W x y) :
    endsChain wanted x = endsChain wanted y := by
  have hnone {c : Char} (hc : isPlain c) : wanted.contains c = false := by
    rw [List.contains_eq_mem, decide_eq_false_iff_not]
    intro hmem
    rw [hwanted.not_plain c hmem] at hc
    cases hc
  cases hread.heads h with
  | nil => rfl
  | same => rfl
  | plain hc hd => exact (hnone hc).trans (hnone hd).symm

theorem signedName_alike (h : Alike C W token token') :
    (signedName token).1 = (signedName token').1 ∧
      Alike C W (signedName token).2 (signedName token').2 := by
  have hplain {c : Char} (hc : c ≠ '-') (text : Text) :
      signedName (c :: text) = (false, c :: text) := by
    unfold signedName
    split
    next heq => exact absurd (List.cons.inj heq).1 hc
    next => rfl
  cases hread.heads h with
  | nil => exact ⟨rfl, h⟩
  | @same c x y hrest =>
      by_cases hminus : c = '-'
      · subst hminus
        exact ⟨rfl, hrest⟩
      · rw [hplain hminus, hplain hminus]
        exact ⟨rfl, h⟩
  | plain hc hd =>
      rw [hplain (by rintro rfl; revert hc; decide), hplain (by rintro rfl; revert hd; decide)]
      exact ⟨rfl, h⟩

theorem ofName?_eq (h : Alike C W token token') :
    Function.ofName? token = Function.ofName? token' := by
  have hnone {name : Text} (hforeign : ∃ c ∈ name, isForeign c) :
      Function.ofName? name = none := by
    obtain ⟨c, hc, hforeign⟩ := hforeign
    refine List.find?_eq_none.mpr fun function hfunction heq => ?_
    have hmem : c.toLower ∈ Text.lowerAscii name := List.mem_map_of_mem hc
    rw [← eq_of_beq heq] at hmem
    have hnot := List.all_eq_true.mp (Bool.and_eq_true_iff.mp hforeign).2 function hfunction
    simp [hmem] at hnot
  rcases hread.forall₂_or_foreign h with h | ⟨hforeign, hforeign'⟩
  · unfold Function.ofName?
    rw [Recased.lowerAscii_eq h]
  · rw [hnone hforeign, hnone hforeign']

end Reading

/-- What is left of two texts behind something read from both. -/
structure LeftAlike (C : Char → Char → Prop) (W : Text → Text → Prop) (x r r' : Text) : Prop where
  alike : Alike C W r r'
  part : r <:+ x
  shorter : r.length < x.length

/-- Two readings that go together: of one shape, with rests that are alike or with none. -/
abbrev Pairs {α : Type} (Like : α → α → Prop) (X : Text → Text → Prop)
    (found found' : α × Option Text) : Prop :=
  Like found.1 found'.1 ∧ Option.Rel X found.2 found'.2

/-- A token that is part of a text and the token in its place in another one. -/
abbrev TokensAlike (C : Char → Char → Prop) (W : Text → Text → Prop) (whole a b : Text) : Prop :=
  Alike C W a b ∧ a <:+: whole

theorem LeftAlike.of_suffix {C : Char → Char → Prop} {W : Text → Text → Prop} {x behind r r' : Text}
    (h : LeftAlike C W behind r r') (hbehind : behind <:+ x) : LeftAlike C W x r r' :=
  ⟨h.alike, h.part.trans hbehind, h.shorter.trans_le hbehind.length_le⟩

/-- Tokens that stand in front of no parenthesis are terms of one shape. -/
theorem pairs_readTerm_token {C : Char → Char → Prop} {W : Text → Text → Prop}
    (hread : AreRead C W) {wanted whole x y token token' rest rest' : Text}
    (hx : readToken wanted [] x = (token, rest)) (hy : readToken wanted [] y = (token', rest'))
    (htoken : Alike C W token token') (hrest : Alike C W rest rest') (hpart : x <:+ whole)
    (hclosed : ∀ inner, rest ≠ '(' :: inner) :
    Pairs (Term.Like (TokensAlike C W whole)) (LeftAlike C W x) (seen (readTerm wanted x))
      (seen (readTerm wanted y)) := by
  have htext := append_of_readToken hx
  have hclosed' : ∀ inner, rest' ≠ '(' :: inner := by
    rintro inner' rfl
    obtain ⟨inner, hinner, -⟩ := hread.symm.of_cons (by decide) hrest.symm
    exact hclosed inner hinner
  rw [seen_readTerm_token hx hclosed, seen_readTerm_token hy hclosed']
  have hempty := hread.isEmpty_eq htoken
  by_cases hnil : token = []
  · subst hnil
    obtain rfl : token' = [] := List.isEmpty_iff.mp hempty.symm
    exact ⟨.missing, .none⟩
  · have hnil' : token' ≠ [] := by
      rintro rfl
      exact hnil (List.isEmpty_iff.mp hempty)
    rw [if_neg hnil, if_neg hnil']
    have hinfix : token <:+: x := ⟨[], rest, htext.symm⟩
    refine ⟨.token ⟨htoken, hinfix.trans hpart.isInfix⟩,
      .some ⟨hrest, ⟨token, htext.symm⟩, ?_⟩⟩
    have hpos := List.length_pos_of_ne_nil hnil
    rw [htext, List.length_append]
    omega

-- By induction on the length of the first text. What is left behind a chain begins with a wanted
-- character, which stands in both texts, so that both go on behind it.
mutual

/-- Texts that are alike are read as chains of one shape. The tokens are parts of the texts. -/
theorem pairs_readChain {C : Char → Char → Prop} {W : Text → Text → Prop} (hread : AreRead C W)
    {wanted whole : Text} (hwanted : Closes wanted) (x : Text) {y : Text} (h : Alike C W x y)
    (hpart : x <:+ whole) :
    Pairs (Chain.Like (TokensAlike C W whole))
      (fun r r' => LeftAlike C W x r r' ∧ endsChain wanted r)
      (seen (readChain wanted x)) (seen (readChain wanted y)) := by
  have hterm := pairs_readTerm hread hwanted x h hpart
  rw [seen_readChain, seen_readChain]
  generalize seen (readTerm wanted x) = found, seen (readTerm wanted y) = found' at hterm ⊢
  rcases found with ⟨term, left⟩
  rcases found' with ⟨term', left'⟩
  obtain ⟨hlike, hleft⟩ := hterm
  cases hleft with
  | none => exact ⟨.last hlike, .none⟩
  | @some r r' hleft =>
      have hend := endsChain_eq hread hwanted hleft.alike
      dsimp only
      rw [← hend]
      split
      next hends => exact ⟨.last hlike, .some ⟨hleft, hends⟩⟩
      next =>
        have hop := alike_leadingOperator? hread hleft.alike
        cases hfound : leadingOperator? r with
        | none =>
            rw [hfound] at hop
            generalize leadingOperator? r' = found at hop
            cases hop
            exact ⟨.broken hlike, .none⟩
        | some found =>
            obtain ⟨op, behind⟩ := found
            rw [hfound] at hop
            generalize leadingOperator? r' = found at hop
            cases hop with
            | @some _ found hsame =>
                obtain ⟨op', behind'⟩ := found
                obtain ⟨rfl, halike⟩ := hsame
                have hbehind : behind <:+ x :=
                  .trans ⟨op.sign, (eq_of_leadingOperator? hfound).symm⟩ hleft.part
                have hlength : behind.length < x.length :=
                  Nat.lt_trans (length_leadingOperator? hfound) hleft.shorter
                obtain ⟨hrest, hmore⟩ :=
                  pairs_readChain hread hwanted behind halike (hbehind.trans hpart)
                refine ⟨.join hlike hrest, ?_⟩
                dsimp only
                generalize (seen (readChain wanted behind)).2 = more,
                  (seen (readChain wanted behind')).2 = more' at hmore ⊢
                cases hmore with
                | none => exact .none
                | some hmore => exact .some ⟨hmore.1.of_suffix hbehind, hmore.2⟩
termination_by (x.length, 1)

theorem pairs_readTerm {C : Char → Char → Prop} {W : Text → Text → Prop} (hread : AreRead C W)
    {wanted whole : Text} (hwanted : Closes wanted) (x : Text) {y : Text} (h : Alike C W x y)
    (hpart : x <:+ whole) :
    Pairs (Term.Like (TokensAlike C W whole)) (LeftAlike C W x) (seen (readTerm wanted x))
      (seen (readTerm wanted y)) := by
  obtain ⟨htoken, hrest⟩ := alike_readToken hread hwanted (.nil : Alike C W [] []) h
  rcases hx : readToken wanted [] x with ⟨token, rest⟩
  rcases hy : readToken wanted [] y with ⟨token', rest'⟩
  rw [hx, hy] at htoken hrest
  dsimp only at htoken hrest
  have htext := append_of_readToken hx
  by_cases hopen : ∃ inner, rest = '(' :: inner
  · obtain ⟨inner, rfl⟩ := hopen
    obtain ⟨inner', rfl, hinner⟩ := hread.of_cons (by decide) hrest
    have hbehind : inner <:+ x := (List.suffix_cons _ _).trans ⟨token, htext.symm⟩
    have hlength : inner.length < x.length := by
      rw [htext, List.length_append, List.length_cons]
      omega
    rw [seen_readTerm_open hx, seen_readTerm_open hy]
    obtain ⟨hnegated, hname⟩ := signedName_alike hread htoken
    generalize signedName token = parts, signedName token' = parts' at hnegated hname ⊢
    obtain ⟨negated, name⟩ := parts
    obtain ⟨negated', name'⟩ := parts'
    dsimp only at hnegated hname ⊢
    subst hnegated
    have hclosed : (inner.head? == some ')') = (inner'.head? == some ')') := by
      rw [Bool.eq_iff_iff, beq_iff_eq, beq_iff_eq]
      exact hread.head?_eq_iff (by decide) hinner
    rw [hread.isEmpty_eq hname, hclosed]
    split
    next =>
      have hclose : Closes [')'] := by simp [Closes]
      obtain ⟨hbody, hleft⟩ := pairs_readChain hread hclose inner hinner (hbehind.trans hpart)
      refine ⟨.group hbody, ?_⟩
      dsimp only
      generalize (seen (readChain [')'] inner)).2 = left,
        (seen (readChain [')'] inner')).2 = left' at hleft ⊢
      cases hleft with
      | none => exact .none
      | some hleft =>
          obtain ⟨hleft, hends⟩ := hleft
          obtain ⟨c, behind, rfl, hc⟩ := exists_of_endsChain hends (by decide)
          obtain rfl : c = ')' := List.mem_singleton.mp hc
          obtain ⟨behind', rfl, halike⟩ := hread.of_cons (by decide) hleft.alike
          have hmore := (List.suffix_cons _ _).trans hleft.part
          refine .some ⟨halike, hmore.trans hbehind, ?_⟩
          exact Nat.lt_of_le_of_lt hmore.length_le hlength
    next =>
      split
      next hclose =>
        obtain ⟨behind', rfl⟩ : ∃ behind', inner' = ')' :: behind' :=
          List.head?_eq_some_iff.mp (eq_of_beq hclose)
        obtain ⟨behind, rfl, halike⟩ := hread.symm.of_cons (by decide) hinner.symm
        refine ⟨.call (ofName?_eq hread hname) .none, .some ⟨halike.symm, ?_, ?_⟩⟩
        · exact (List.suffix_cons _ _).trans hbehind
        · simp only [List.length_cons, List.drop_one, List.tail_cons] at hlength ⊢
          omega
      next =>
        obtain ⟨harguments, hleft⟩ := pairs_readArguments hread inner hinner (hbehind.trans hpart)
        refine ⟨.call (ofName?_eq hread hname) harguments, ?_⟩
        dsimp only
        generalize (seen (readArguments inner)).2 = left,
          (seen (readArguments inner')).2 = left' at hleft ⊢
        cases hleft with
        | none => exact .none
        | some hleft => exact .some (hleft.of_suffix hbehind)
  · exact pairs_readTerm_token hread hx hy htoken hrest hpart (not_exists.mp hopen)
termination_by (x.length, 0)

theorem pairs_readArguments {C : Char → Char → Prop} {W : Text → Text → Prop}
    (hread : AreRead C W) {whole : Text} (x : Text) {y : Text} (h : Alike C W x y)
    (hpart : x <:+ whole) :
    Pairs (Arguments.Like (TokensAlike C W whole)) (LeftAlike C W x) (seen (readArguments x))
      (seen (readArguments y)) := by
  have hchain := pairs_readChain hread closes_argument x h hpart
  rw [seen_readArguments, seen_readArguments]
  generalize seen (readChain [',', ')'] x) = found, seen (readChain [',', ')'] y) = found'
    at hchain ⊢
  rcases found with ⟨first, left⟩
  rcases found' with ⟨first', left'⟩
  obtain ⟨hlike, hleft⟩ := hchain
  cases hleft with
  | none => exact ⟨.more hlike .none, .none⟩
  | @some r r' hleft =>
      obtain ⟨hleft, hends⟩ := hleft
      obtain ⟨behind, behind', hr, hr', halike⟩ :
          ∃ behind behind', r.drop 1 = behind ∧ r'.drop 1 = behind' ∧
            Alike C W behind behind' := by
        obtain ⟨c, behind, rfl, hc⟩ := exists_of_endsChain hends (by decide)
        obtain ⟨behind', rfl, halike⟩ :=
          hread.of_cons (closes_argument.not_plain c hc) hleft.alike
        exact ⟨behind, behind', rfl, rfl, halike⟩
      have hbehind : behind <:+ x := hr ▸ (List.drop_suffix 1 r).trans hleft.part
      have hlength : behind.length < x.length := by
        rw [← hr, List.length_drop]
        have := hleft.shorter
        omega
      have hcomma : (r'.head? == some ',') = (r.head? == some ',') := by
        rw [Bool.eq_iff_iff, beq_iff_eq, beq_iff_eq]
        exact (hread.head?_eq_iff (by decide) hleft.alike).symm
      dsimp only
      rw [hcomma, hr, hr']
      split
      next =>
        obtain ⟨hrest, hmore⟩ := pairs_readArguments hread behind halike (hbehind.trans hpart)
        refine ⟨.more hlike hrest, ?_⟩
        dsimp only
        generalize (seen (readArguments behind)).2 = more,
          (seen (readArguments behind')).2 = more' at hmore ⊢
        cases hmore with
        | none => exact .none
        | some hmore => exact .some (hmore.of_suffix hbehind)
      next => exact ⟨.more hlike .none, .some ⟨halike, hbehind, hlength⟩⟩
termination_by (x.length, 2)

end

/-- Whole texts that are alike are read as chains of one shape. -/
theorem Alike.like_readChain {C : Char → Char → Prop} {W : Text → Text → Prop} {x y : Text}
    (h : Alike C W x y) (hread : AreRead C W) :
    (readChain [] x).1.Like (TokensAlike C W x) (readChain [] y).1 :=
  have hwanted : Closes [] := nofun
  (pairs_readChain hread hwanted x h (List.suffix_refl x)).1

/-- A token that is part of a text. -/
abbrev IsTokenOf : Text → Text → Text → Prop :=
  TokensAlike Eq fun _ _ => False

theorem IsTokenOf.eq {x a b : Text} (h : IsTokenOf x a b) : a = b := by
  obtain ⟨halike, -⟩ := h
  induction halike with
  | nil => rfl
  | char hcd _ ih => rw [hcd, ih]
  | name hab => exact hab.elim

/-- The tokens of a chain are parts of the text that it is read from. -/
theorem like_readChain_self (x : Text) :
    (readChain [] x).1.Like (IsTokenOf x) (readChain [] x).1 :=
  (Alike.of_chars fun _ _ => rfl).like_readChain ⟨.inl, False.elim⟩

end MapAlgebra.Expression
