import Mathlib.Data.List.TakeWhile
import MapAlgebra.Script.Loop

/-!
# Heads and ends of loops

How the lines around a loop are read once the values of the loops around them stand in them. A value
never reaches across a blank, so that a head and an end keep their words and only the bounds change.
-/

namespace MapAlgebra.Script

/-- A name of a loop variable: letters and digits of ASCII and the underscore. -/
structure IsVariable (name : Text) : Prop where
  nonempty : name ≠ []
  word : ∀ c ∈ name, c.toNat < 128 ∧ Text.isWord c

instance (name : Text) : Decidable (IsVariable name) :=
  decidable_of_iff (name ≠ [] ∧ name.all fun c => c.toNat < 128 && Text.isWord c)
    ⟨fun h => ⟨h.1, by simpa using h.2⟩, fun h => ⟨h.nonempty, by simpa using h.word⟩⟩

namespace IsVariable

variable {name : Text}

theorem spec (h : IsVariable name) {c : Char} (hc : c ∈ name) :
    Text.isWord c ∧ Text.isBlank c = false ∧ c ≠ '%' ∧ Text.sameLetter c ' ' = false := by
  have hall : ∀ n < 128, Text.isWord (Char.ofNat n) → Text.isBlank (Char.ofNat n) = false ∧
      Char.ofNat n ≠ '%' ∧ Text.sameLetter (Char.ofNat n) ' ' = false := by decide +kernel
  obtain ⟨hascii, hword⟩ := h.word c hc
  refine ⟨hword, ?_⟩
  have hcode := hall c.toNat hascii
  rw [Char.ofNat_toNat] at hcode
  exact hcode hword

theorem exists_cons (h : IsVariable name) :
    ∃ c rest, name = c :: rest ∧ Text.isBlank c = false := by
  cases name with
  | nil => exact absurd rfl h.nonempty
  | cons c rest => exact ⟨c, rest, rfl, (h.spec List.mem_cons_self).2.1⟩

end IsVariable

/-- The characters before the first that is not kept. -/
theorem span_append_cons {keep : Char → Bool} {text : Text} (h : ∀ c ∈ text, keep c) {c : Char}
    (hc : keep c = false) (rest : Text) :
    Text.span keep (text ++ c :: rest) = (text, c :: rest) := by
  unfold Text.span
  rw [List.takeWhile_append_of_pos h, List.dropWhile_append_of_pos h,
    List.takeWhile_cons_of_neg (by simp [hc]), List.dropWhile_cons_of_neg (by simp [hc]),
    List.append_nil]

section Substitution

variable {name : Text}

theorem behindVariable?_of_ne {c : Char} (h : c ≠ '%') (tail : Text) :
    behindVariable? name (c :: tail) = none := by
  have hletter : Text.sameLetter '%' c = false := by
    have huncased : Text.isCased '%' = false := by decide
    unfold Text.sameLetter
    rw [huncased]
    simpa using h.symm
  unfold behindVariable?
  rw [List.cons_append, Text.dropCaseless?, hletter]
  rfl

theorem substitute_of_eq_some {text behind : Text} (h : behindVariable? name text = some behind)
    (value : Int) : substitute name value text = numeral value ++ substitute name value behind := by
  cases text with
  | nil => cases h
  | cons c tail =>
      rw [substitute]
      split
      next heq => rw [Option.some.inj (heq.symm.trans h)]
      next heq => cases heq.symm.trans h

theorem substitute_of_eq_none {c : Char} {tail : Text} (h : behindVariable? name (c :: tail) = none)
    (value : Int) : substitute name value (c :: tail) = c :: substitute name value tail := by
  rw [substitute]
  split
  next heq => cases heq.symm.trans h
  next => rfl

/-- A text without a percent sign stays as it is. -/
theorem substitute_of_not_mem {text : Text} (h : '%' ∉ text) (value : Int) :
    substitute name value text = text := by
  induction text with
  | nil => rw [substitute]
  | cons c tail ih =>
      rw [List.mem_cons, not_or] at h
      rw [substitute_of_eq_none (behindVariable?_of_ne (Ne.symm h.1) tail), ih h.2]

end Substitution

/-- The values of the loops around a line, the outermost first. -/
abbrev Values := List (Text × Int)

namespace Values

/-- A text with the values in place of the names of their variables. -/
def fill (values : Values) (text : Text) : Text :=
  values.foldl (fun text entry => substitute entry.1 entry.2 text) text

end Values

/-- A whole number as a loop head has it: digits with an optional sign. -/
structure IsDecimal (text : Text) : Prop where
  nonempty : (Reading.sign text).2 ≠ []
  digits : ∀ c ∈ (Reading.sign text).2, Text.isDigit c

instance (text : Text) : Decidable (IsDecimal text) :=
  decidable_of_iff ((Reading.sign text).2 ≠ [] ∧ (Reading.sign text).2.all Text.isDigit)
    ⟨fun h => ⟨h.1, by simpa using h.2⟩, fun h => ⟨h.nonempty, by simpa using h.digits⟩⟩

/-- The digits of a whole number. -/
def decimalDigits (text : Text) : Text := (Reading.sign text).2

/-- The whole number that digits with an optional sign write. -/
def decimalValue (text : Text) : Int :=
  let value : Int := Text.digitsValue (decimalDigits text)
  if (Reading.sign text).1 then -value else value

/-- The head of a loop from one bound to another. -/
def headText (name first last : Text) : Text :=
  'F' :: 'O' :: 'R' :: ' ' :: (name ++ ' ' :: '=' :: ' ' :: (first ++ ' ' :: 'T' :: 'O' :: ' ' ::
    last))

/-- The end of a loop, with the name of its variable or without. -/
def endText (name : Option Text) : Text :=
  match name with
  | none => ['N', 'E', 'X', 'T']
  | some name => 'N' :: 'E' :: 'X' :: 'T' :: ' ' :: name

section Reading

/-- The runs of digits leave out the blanks. -/
theorem isBlank_of_isDigit {c : Char} (h : Text.isDigit c) : Text.isBlank c = false := by
  have hruns : ∀ first ∈ Text.zeroDigits, 48 = first ∨ 0xA0 < first ∧
      (first + 10 ≤ 0x1680 ∨ 0x1680 < first) ∧ (first + 10 ≤ 0x2000 ∨ 0x3000 < first) := by decide
  obtain ⟨first, hfirst, hle, hlt⟩ : ∃ first ∈ Text.zeroDigits, first ≤ c.toNat ∧
      c.toNat < first + 10 := by
    unfold Text.isDigit Text.digit? at h
    dsimp only at h
    split at h
    next =>
      split at h
      next hascii =>
        simp only [Bool.and_eq_true, decide_eq_true_eq] at hascii
        exact ⟨48, by decide, by omega, by omega⟩
      next => cases h
    next =>
      rw [Option.isSome_map, List.find?_isSome] at h
      obtain ⟨first, hfirst, hrange⟩ := h
      simp only [Bool.and_eq_true, decide_eq_true_eq] at hrange
      exact ⟨first, hfirst, hrange⟩
  have hdisjoint := hruns first hfirst
  unfold Text.isBlank
  simp only [Bool.or_eq_false_iff, Bool.and_eq_false_iff, decide_eq_false_iff_not,
    beq_eq_false_iff_ne]
  omega

theorem trimLeft_cons {c : Char} (h : Text.isBlank c = false) (rest : Text) :
    Text.trimLeft (c :: rest) = c :: rest :=
  List.dropWhile_cons_of_neg (by simp [h])

theorem sign_cons_of_ne {c : Char} (hminus : c ≠ '-') (hplus : c ≠ '+') (rest : Text) :
    Reading.sign (c :: rest) = (false, c :: rest) := by
  unfold Reading.sign
  split
  next heq => exact absurd (List.cons.inj heq).1 hminus
  next heq => exact absurd (List.cons.inj heq).1 hplus
  next => rfl

/-- A sign is read in front of a number, whatever comes behind the number. -/
theorem sign_append {text : Text} (h : (Reading.sign text).2 ≠ []) (rest : Text) :
    Reading.sign (text ++ rest) = ((Reading.sign text).1, (Reading.sign text).2 ++ rest) := by
  cases text with
  | nil => exact absurd rfl h
  | cons c tail =>
      by_cases hminus : c = '-'
      · subst hminus
        rfl
      · by_cases hplus : c = '+'
        · subst hplus
          rfl
        · rw [List.cons_append, sign_cons_of_ne hminus hplus, sign_cons_of_ne hminus hplus]
          rfl

namespace IsDecimal

variable {text : Text}

theorem eq_sign_or (text : Text) : text = (Reading.sign text).2 ∨
    ∃ c, (c = '-' ∨ c = '+') ∧ text = c :: (Reading.sign text).2 := by
  unfold Reading.sign
  split
  next => exact .inr ⟨'-', .inl rfl, rfl⟩
  next => exact .inr ⟨'+', .inr rfl, rfl⟩
  next => exact .inl rfl

theorem mem (h : IsDecimal text) {c : Char} (hc : c ∈ text) :
    c = '-' ∨ c = '+' ∨ Text.isDigit c := by
  rcases eq_sign_or text with heq | ⟨sign, hsign, heq⟩
  · rw [heq] at hc
    exact .inr (.inr (h.digits c hc))
  · rw [heq] at hc
    rcases List.mem_cons.mp hc with rfl | hc
    · exact hsign.imp_right .inl
    · exact .inr (.inr (h.digits c hc))

theorem isBlank (h : IsDecimal text) : ∀ c ∈ text, Text.isBlank c = false := by
  intro c hc
  rcases h.mem hc with rfl | rfl | hdigit
  · decide
  · decide
  · exact isBlank_of_isDigit hdigit

theorem exists_cons (h : IsDecimal text) : ∃ c rest, text = c :: rest := by
  cases text with
  | nil => exact absurd rfl h.nonempty
  | cons c rest => exact ⟨c, rest, rfl⟩

end IsDecimal

variable {name first last : Text}

/-- Blanks are taken off the end only as far as the last character that is none. -/
theorem exists_trimRight_append_cons (front : Text) {c : Char} (h : Text.isBlank c = false)
    (rest : Text) : ∃ rest', Text.trimRight (front ++ c :: rest) = front ++ c :: rest' := by
  unfold Text.trimRight
  rw [List.reverse_append, List.reverse_cons, List.append_assoc, List.dropWhile_append]
  split
  next =>
    refine ⟨[], ?_⟩
    rw [List.singleton_append, List.dropWhile_cons_of_neg (by simp [h]), List.reverse_cons,
      List.reverse_reverse]
  next =>
    refine ⟨(rest.reverse.dropWhile Text.isBlank).reverse, ?_⟩
    simp

end Reading

end MapAlgebra.Script
