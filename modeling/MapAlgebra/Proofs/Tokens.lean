import Mathlib.Data.List.TakeWhile
import MapAlgebra.Expression.Chain

/-!
# Tokens

The texts that are tokens, apart from how they are read: a minus sign may stand in front, and behind
the mantissa of a number in scientific notation one sign belongs to the token.
-/

namespace MapAlgebra

/-- What holds of the first 128 characters holds of every ASCII character. -/
theorem Text.forall_ascii {p : Char → Prop} (h : ∀ n < 128, p (Char.ofNat n)) {c : Char}
    (hc : c.toNat < 128) : p c :=
  Char.ofNat_toNat c ▸ h c.toNat hc

namespace Expression

/-- A character that neither begins an operator nor is a parenthesis or a comma. -/
def isPlain (c : Char) : Bool :=
  !(Operator.startsSign c || c == '(' || c == ')' || c == ',')

/-- Digits with an optional point among them; at least one digit. -/
inductive IsPointed : Text → Prop
  | whole {digits : Text} (hne : digits ≠ []) (h : ∀ c ∈ digits, Text.isDigit c) : IsPointed digits
  | pointed {digits fraction : Text} (hne : digits ++ fraction ≠ [])
      (h : ∀ c ∈ digits ++ fraction, Text.isDigit c) : IsPointed (digits ++ '.' :: fraction)

/-- A number in scientific notation up to the letter of its exponent. -/
inductive IsMantissa : Text → Prop
  | intro {number : Text} {letter : Char} (h : IsPointed number)
      (hletter : letter = 'e' ∨ letter = 'E') : IsMantissa (number ++ [letter])

/-- A token without its minus sign. -/
inductive IsBody : Text → Prop
  | plain {text : Text} (h : ∀ c ∈ text, isPlain c) : IsBody text
  | scientific {mantissa exponent : Text} {sign : Char} (h : IsMantissa mantissa)
      (hsign : sign = '+' ∨ sign = '-') (hexponent : ∀ c ∈ exponent, isPlain c) :
      IsBody (mantissa ++ sign :: exponent)

/-- The sign in front of a negated token. -/
def minus (negated : Bool) : Text :=
  if negated then ['-'] else []

theorem eq_minus_append (token : Text) :
    token = minus (signedName token).1 ++ (signedName token).2 := by
  unfold signedName
  split <;> rfl

/-- A text is a token up to some place in it. -/
def StartsToken (text : Text) : Prop :=
  ∃ negated body, IsBody body ∧ text = minus negated ++ body

theorem startsToken_nil : StartsToken [] :=
  ⟨false, [], .plain (List.forall_mem_nil _), rfl⟩

def IsToken (text : Text) : Prop :=
  text ≠ [] ∧ StartsToken text

/-- A sign behind the text belongs to it. -/
def AwaitsSign (text : Text) : Prop :=
  ∃ negated mantissa, IsMantissa mantissa ∧ text = minus negated ++ mantissa

/-- The characters that are not plain are few, so that a class of characters is plain when it has
none of them. -/
theorem isPlain_of_none {p : Char → Bool}
    (hnone : ['^', '*', '/', '+', '-', '=', '!', '<', '>', '&', '|', '(', ')', ','].all
      fun d => !p d) {c : Char} (h : p c) : isPlain c := by
  by_contra hplain
  have hmem : c ∈ ['^', '*', '/', '+', '-', '=', '!', '<', '>', '&', '|', '(', ')', ','] := by
    simp only [isPlain, Operator.startsSign, Bool.not_eq_true, Bool.not_eq_false',
      Bool.or_eq_true, List.contains_iff_mem, beq_iff_eq] at hplain
    rcases hplain with ((hplain | rfl) | rfl) | rfl
    · exact List.mem_append_left ['(', ')', ','] hplain
    all_goals decide
  have hnot := List.all_eq_true.mp hnone c hmem
  rw [h] at hnot
  cases hnot

theorem isPlain_of_isDigit {c : Char} (h : Text.isDigit c) : isPlain c :=
  isPlain_of_none (p := Text.isDigit) (by decide) h

theorem isPlain_sign (op : Operator) : ∀ c ∈ op.sign, isPlain c = false := by
  cases op <;> simp [Operator.sign] <;> decide

theorem isPlain_of_isAlpha {c : Char} (h : c.isAlpha) : isPlain c :=
  isPlain_of_none (p := Char.isAlpha) (by decide) h

theorem IsPointed.isDigit_or_point {text : Text} (h : IsPointed text) :
    ∀ c ∈ text, Text.isDigit c ∨ c = '.' := by
  cases h with
  | whole hne h => exact fun c hc => .inl (h c hc)
  | pointed hne h =>
      intro c hc
      rcases List.mem_append.mp hc with hc | hc
      · exact .inl (h c (List.mem_append_left _ hc))
      · exact (List.mem_cons.mp hc).symm.imp_left fun hc => h c (List.mem_append_right _ hc)

theorem IsPointed.plain {text : Text} (h : IsPointed text) : ∀ c ∈ text, isPlain c := by
  intro c hc
  rcases h.isDigit_or_point c hc with hdigit | rfl
  · exact isPlain_of_isDigit hdigit
  · rfl

theorem IsMantissa.plain {text : Text} (h : IsMantissa text) : ∀ c ∈ text, isPlain c := by
  obtain ⟨hnumber, hletter⟩ := h
  intro c hc
  rcases List.mem_append.mp hc with hc | hc
  · exact hnumber.plain c hc
  · rw [List.mem_singleton.mp hc]
    rcases hletter with rfl | rfl <;> rfl

theorem isDigitsWithPoint_iff {text : Text} : isDigitsWithPoint text ↔ IsPointed text := by
  have hpoint : Text.isDigit '.' = false := by decide
  constructor
  · intro h
    have hwhole : ∀ c ∈ text.takeWhile Text.isDigit, Text.isDigit c :=
      fun c hc => List.mem_takeWhile_imp hc
    have htext := List.takeWhile_append_dropWhile (p := Text.isDigit) (l := text)
    unfold isDigitsWithPoint Text.span at h
    dsimp only at h
    split at h
    next hrest =>
      rw [hrest, List.append_nil] at htext
      rw [← htext]
      refine .whole (fun hnil => ?_) hwhole
      rw [hnil] at h
      cases h
    next fraction hrest =>
      rw [hrest] at htext
      rw [← htext]
      obtain ⟨hfraction, hne⟩ := Bool.and_eq_true_iff.mp h
      refine .pointed (fun hnil => ?_) fun c hc => ?_
      · obtain ⟨hw, hf⟩ := List.append_eq_nil_iff.mp hnil
        rw [hw, hf] at hne
        cases hne
      · rcases List.mem_append.mp hc with hc | hc
        · exact hwhole c hc
        · exact List.all_eq_true.mp hfraction c hc
    next => cases h
  · intro h
    unfold isDigitsWithPoint Text.span
    cases h with
    | whole hne h =>
        rw [List.takeWhile_eq_self_iff.mpr h, List.dropWhile_eq_nil_iff.mpr h]
        simpa using hne
    | pointed hne h =>
        have hdigits := fun c hc => h c (List.mem_append_left _ hc)
        have hfraction := fun c hc => h c (List.mem_append_right _ hc)
        rw [List.takeWhile_append_of_pos hdigits, List.dropWhile_append_of_pos hdigits,
          List.takeWhile_cons_of_neg (by simp [hpoint]),
          List.dropWhile_cons_of_neg (by simp [hpoint]), List.append_nil]
        simpa [List.all_eq_true.mpr hfraction, imp_iff_not_or] using hne

theorem IsMantissa.ne_minus {text : Text} (h : IsMantissa text) (rest : Text) :
    text ≠ '-' :: rest := by
  rintro rfl
  exact absurd (h.plain '-' List.mem_cons_self) (by decide)

theorem isMantissa_iff {number : Text} {letter : Char} :
    IsMantissa (number ++ [letter]) ↔ (letter = 'e' ∨ letter = 'E') ∧ IsPointed number := by
  constructor
  · intro h
    generalize htext : number ++ [letter] = text at h
    cases h with
    | intro hnumber hletter =>
        obtain ⟨rfl, heq⟩ := List.append_inj' htext rfl
        cases heq
        exact ⟨hletter, hnumber⟩
  · exact fun ⟨hletter, hnumber⟩ => .intro hnumber hletter

/-- Behind a minus sign a text is looked at as it is without one. -/
theorem awaitsExponent_minus {number : Text} (h : ∀ rest, number ≠ '-' :: rest) :
    awaitsExponent ('-' :: number) = awaitsExponent number := by
  unfold awaitsExponent
  simp

theorem awaitsExponent_minus_iff {number : Text} :
    awaitsExponent ('-' :: number) ↔ IsMantissa number := by
  rcases List.eq_nil_or_concat number with rfl | ⟨front, letter, rfl⟩
  · refine ⟨fun h => absurd h Bool.false_ne_true, fun h => ?_⟩
    generalize hnil : ([] : Text) = text at h
    obtain ⟨hnumber, hletter⟩ := h
    simp at hnil
  · rw [List.concat_eq_append, isMantissa_iff, ← isDigitsWithPoint_iff]
    simp [awaitsExponent]

theorem awaitsExponent_iff {token : Text} : awaitsExponent token ↔ AwaitsSign token := by
  by_cases hminus : ∃ rest, token = '-' :: rest
  · obtain ⟨rest, rfl⟩ := hminus
    rw [awaitsExponent_minus_iff]
    constructor
    · exact fun h => ⟨true, rest, h, rfl⟩
    · rintro ⟨negated, mantissa, h, heq⟩
      cases negated with
      | false => exact absurd heq.symm (h.ne_minus rest)
      | true =>
          cases heq
          exact h
  · have hplain := not_exists.mp hminus
    rw [← awaitsExponent_minus hplain, awaitsExponent_minus_iff]
    constructor
    · exact fun h => ⟨false, token, h, rfl⟩
    · rintro ⟨negated, mantissa, h, heq⟩
      cases negated with
      | false =>
          rw [heq]
          exact h
      | true => exact absurd heq (hplain mantissa)

section Reading

variable {wanted token rest : Text} {c : Char}

theorem continuesToken_of_isPlain (hwanted : ∀ d ∈ wanted, isPlain d = false) (h : isPlain c) :
    continuesToken wanted token c := by
  have hcontains : wanted.contains c = false := by
    rw [List.contains_eq_mem, decide_eq_false_iff_not]
    intro hmem
    rw [hwanted c hmem] at h
    cases h
  unfold continuesToken
  rw [hcontains, Bool.or_false, Bool.or_eq_true]
  exact .inr h

/-- A token goes on with a plain character, a minus sign at its start, or the sign it awaits. -/
theorem of_continuesToken (h : continuesToken wanted token c) :
    isPlain c ∨ (c = '-' ∧ token = []) ∨ ((c = '+' ∨ c = '-') ∧ AwaitsSign token) := by
  unfold continuesToken at h
  rcases Bool.or_eq_true_iff.mp h with h | h
  · rcases Bool.or_eq_true_iff.mp h with h | h
    · obtain ⟨hc, htoken⟩ := Bool.and_eq_true_iff.mp h
      exact .inr (.inl ⟨eq_of_beq hc, List.isEmpty_iff.mp htoken⟩)
    · obtain ⟨hc, htoken⟩ := Bool.and_eq_true_iff.mp h
      refine .inr (.inr ⟨?_, awaitsExponent_iff.mp htoken⟩)
      simpa using hc
  · refine .inl ?_
    unfold isPlain
    simp only [Bool.not_eq_true', Bool.or_eq_false_iff] at h ⊢
    exact h.1

theorem StartsToken.append (htoken : StartsToken token) (h : continuesToken wanted token c) :
    StartsToken (token ++ [c]) := by
  rcases of_continuesToken h with hplain | ⟨rfl, rfl⟩ | ⟨hsign, negated, mantissa, hm, rfl⟩
  · have hsingle : ∀ d ∈ [c], isPlain d := fun d hd => List.mem_singleton.mp hd ▸ hplain
    obtain ⟨negated, body, hbody, rfl⟩ := htoken
    refine ⟨negated, body ++ [c], ?_, List.append_assoc _ _ _⟩
    cases hbody with
    | plain h => exact .plain fun d hd => (List.mem_append.mp hd).elim (h d) (hsingle d)
    | scientific hm hsign hexponent =>
        rw [List.append_assoc, List.cons_append]
        exact .scientific hm hsign fun d hd =>
          (List.mem_append.mp hd).elim (hexponent d) (hsingle d)
  · exact ⟨true, [], .plain (fun d hd => by cases hd), rfl⟩
  · exact ⟨negated, mantissa ++ [c], .scientific hm hsign (fun d hd => by cases hd),
      List.append_assoc _ _ _⟩

/-- What is read is a token up to some place, and the rest does not go on with it. -/
theorem readToken_spec (wanted : Text) (htoken : StartsToken token) (text : Text) :
    StartsToken (readToken wanted token text).1 ∧
      token ++ text = (readToken wanted token text).1 ++ (readToken wanted token text).2 ∧
      ∀ c ∈ (readToken wanted token text).2.head?,
        continuesToken wanted (readToken wanted token text).1 c = false := by
  induction text generalizing token with
  | nil => exact ⟨htoken, rfl, fun c hc => by cases hc⟩
  | cons c rest ih =>
      unfold readToken
      split
      next h =>
        obtain ⟨hstarts, htext, hstops⟩ := ih (htoken.append h)
        rw [List.append_assoc] at htext
        exact ⟨hstarts, htext, hstops⟩
      next h =>
        refine ⟨htoken, rfl, fun d hd => ?_⟩
        cases hd
        exact Bool.not_eq_true _ ▸ h

theorem append_of_readToken {text : Text} (h : readToken wanted [] text = (token, rest)) :
    text = token ++ rest := by
  have htext := (readToken_spec wanted startsToken_nil text).2.1
  rwa [h] at htext

theorem readToken_of_stops (h : ∀ c ∈ rest.head?, continuesToken wanted token c = false) :
    readToken wanted token rest = (token, rest) := by
  cases rest with
  | nil => rfl
  | cons c rest =>
      unfold readToken
      rw [if_neg (by simp [h c rfl])]

theorem readToken_cons (h : continuesToken wanted token c) :
    readToken wanted token (c :: rest) = readToken wanted (token ++ [c]) rest := by
  rw [readToken, if_pos h]

theorem readToken_plain (hwanted : ∀ d ∈ wanted, isPlain d = false) {more : Text}
    (h : ∀ c ∈ more, isPlain c) :
    readToken wanted token (more ++ rest) = readToken wanted (token ++ more) rest := by
  induction more generalizing token with
  | nil => rw [List.append_nil, List.nil_append]
  | cons c more ih =>
      rw [List.cons_append,
        readToken_cons (continuesToken_of_isPlain hwanted (h c List.mem_cons_self)),
        ih fun d hd => h d (List.mem_cons_of_mem _ hd), List.append_assoc, List.singleton_append]

/-- Reading takes in a token as far as it goes. -/
theorem readToken_of_startsToken (hwanted : ∀ d ∈ wanted, isPlain d = false)
    (h : StartsToken token) :
    readToken wanted [] (token ++ rest) = readToken wanted token rest := by
  obtain ⟨negated, body, hbody, rfl⟩ := h
  have hminus (text : Text) :
      readToken wanted [] (minus negated ++ text) = readToken wanted (minus negated) text := by
    cases negated with
    | false => rfl
    | true => exact readToken_cons rfl
  rw [List.append_assoc, hminus]
  cases hbody with
  | plain h => exact readToken_plain hwanted h
  | @scientific mantissa exponent sign h hsign hexponent =>
      -- where the sign stands the token so far is a mantissa, so the sign goes on with it
      have hawaits : continuesToken wanted (minus negated ++ mantissa) sign := by
        have hexp := awaitsExponent_iff.mpr ⟨negated, mantissa, h, rfl⟩
        unfold continuesToken
        rw [hexp]
        rcases hsign with rfl | rfl <;> simp
      rw [List.append_assoc, readToken_plain hwanted h.plain, List.cons_append,
        readToken_cons hawaits, readToken_plain hwanted hexponent]
      simp only [List.append_assoc, List.singleton_append]

end Reading

end Expression

end MapAlgebra
