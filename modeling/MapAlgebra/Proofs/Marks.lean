import MapAlgebra.Expression.Evaluation
import MapAlgebra.Proofs.Likeness

/-!
# Tokens with names in them

What has a foreign character in it is no number, and what has the mark of placeholders in it is not
the keyword for no data. A text is shown with names only where the mark is one of a placeholder. In
texts that are alike but for names, a name stands in the place of a placeholder, and what ends the
one text behind its names ends the other one too.
-/

namespace MapAlgebra

theorem Text.endsCaseless_append {ending text : Text} (front : Text)
    (h : endsCaseless ending text) : endsCaseless ending (front ++ text) :=
  List.isSuffixOf_iff_suffix.mpr ((List.isSuffixOf_iff_suffix.mp h).trans
    ⟨lowerAscii front, List.map_append.symm⟩)

namespace Expression

/-- A token ends like its name. -/
theorem endsCaseless_of_signedName {ending token : Text}
    (h : Text.endsCaseless ending (signedName token).2) : Text.endsCaseless ending token := by
  have hends := Text.endsCaseless_append (minus (signedName token).1) h
  rwa [← eq_minus_append token] at hends

section Marks

variable {V : Type}

theorem isDigit_mark : Text.isDigit '#' = false := by decide

theorem isDigit_of_isForeign {c : Char} (hc : isForeign c) : Text.isDigit c = false := by
  simp only [isForeign, Bool.and_eq_true, Bool.not_eq_true', Bool.or_eq_false_iff] at hc
  exact hc.1.2.1.1.1

section Numbers

variable {c : Char} {text : Text} (hc : isForeign c)
include hc

theorem ne_of_isForeign {d : Char} (hd : isForeign d = false) : c ≠ d := by
  rintro rfl
  rw [hd] at hc
  cases hc

theorem mem_dropWhile_of_isForeign (h : c ∈ text) : c ∈ text.dropWhile Text.isDigit := by
  rw [← List.takeWhile_append_dropWhile (p := Text.isDigit) (l := text)] at h
  rcases List.mem_append.mp h with h | h
  · cases (isDigit_of_isForeign hc).symm.trans (List.mem_takeWhile_imp h)
  · exact h

theorem mem_sign_of_isForeign (h : c ∈ text) : c ∈ (Reading.sign text).2 := by
  unfold Reading.sign
  split
  next => exact (List.mem_cons.mp h).resolve_left (ne_of_isForeign hc (by decide))
  next => exact (List.mem_cons.mp h).resolve_left (ne_of_isForeign hc (by decide))
  next => exact h

theorem exponent?_of_isForeign (h : c ∈ text) : Reading.exponent? text = none := by
  have hall : (Reading.sign text).2.all Text.isDigit = false := by
    rw [List.all_eq_false]
    exact ⟨c, mem_sign_of_isForeign hc h, by simp [isDigit_of_isForeign hc]⟩
  unfold Reading.exponent?
  dsimp only
  rw [hall]
  simp

theorem unsignedDecimal?_of_isForeign (h : c ∈ text) :
    Reading.unsignedDecimal? text = none := by
  -- behind the digits the character can only stand in an exponent
  have hexponent (digits : Nat) (fraction : Int) {d : Char} {tail : Text} (h : c ∈ d :: tail) :
      (if d == 'e' || d == 'E' then
        (Reading.exponent? tail).map fun exponent => (digits, exponent - fraction)
      else none) = none := by
    split
    next hletter =>
      have hne : c ≠ d := ne_of_isForeign hc <| by
        rcases Bool.or_eq_true_iff.mp hletter with h | h
        · exact eq_of_beq h ▸ by decide
        · exact eq_of_beq h ▸ by decide
      rw [exponent?_of_isForeign hc ((List.mem_cons.mp h).resolve_left hne), Option.map_none]
    next => rfl
  have hmem := mem_dropWhile_of_isForeign hc h
  unfold Reading.unsignedDecimal? Text.span
  dsimp only
  generalize text.takeWhile Text.isDigit = whole, text.dropWhile Text.isDigit = rest at hmem ⊢
  split
  next tail =>
    have hmem := mem_dropWhile_of_isForeign hc
      ((List.mem_cons.mp hmem).resolve_left (ne_of_isForeign hc (by decide)))
    dsimp only
    generalize tail.dropWhile Text.isDigit = rest at hmem ⊢
    split
    next => rfl
    next =>
      cases rest with
      | nil => cases hmem
      | cons d tail => exact hexponent _ _ hmem
  next =>
    dsimp only
    split
    next => rfl
    next =>
      cases rest with
      | nil => cases hmem
      | cons d tail => exact hexponent _ _ hmem

end Numbers

/-- What has a foreign character in it is no number. -/
theorem literal?_of_foreign [Number V] {token : Text} (h : ∃ c ∈ token, isForeign c) :
    (literal? token : Option V) = none := by
  obtain ⟨c, hmem, hc⟩ := h
  unfold literal?
  dsimp only
  rw [unsignedDecimal?_of_isForeign hc (mem_sign_of_isForeign hc hmem), Option.map_none]

theorem isNodataToken_of_mark {token : Text} (h : '#' ∈ token) : isNodataToken token = false := by
  unfold isNodataToken
  rw [beq_eq_false_iff_ne]
  intro hkey
  have hmem : '#' ∈ Text.upper token := List.mem_flatMap.mpr ⟨'#', h, by decide⟩
  rw [hkey] at hmem
  revert hmem
  decide

/-- A character that is not the mark of placeholders is shown as it is. -/
theorem expand_cons (prepared : Prepared) {c : Char} (hc : c ≠ '#') (text : Text) :
    prepared.expand (c :: text) = c :: prepared.expand text := by
  have hnone : Prepared.leadingPlaceholder? (c :: text) = none := by
    unfold Prepared.leadingPlaceholder?
    split
    next heq => exact absurd (List.cons.inj heq).1 hc
    next => rfl
  rw [Prepared.expand]
  split
  next heq => cases heq.symm.trans hnone
  next => rfl

/-- A text without the mark of placeholders is shown as it is. -/
theorem expand_of_not_mem (prepared : Prepared) {text : Text} (h : '#' ∉ text) :
    prepared.expand text = text := by
  induction text with
  | nil => rw [Prepared.expand]
  | cons c tail ih =>
      rw [List.mem_cons, not_or] at h
      rw [expand_cons prepared (Ne.symm h.1), ih h.2]

theorem mark_not_mem_expressionId (number : Nat) : '#' ∉ expressionId number := by
  intro h
  rcases List.mem_append.mp h with h | h
  · revert h
    decide
  · have hdigit := Nat.isDigit_of_mem_toDigits (by decide) (by decide) h
    revert hdigit
    decide

theorem mark_not_mem_intercalate {tokens : List Text} (h : ∀ token ∈ tokens, '#' ∉ token) :
    '#' ∉ List.intercalate [','] tokens := by
  induction tokens with
  | nil => simp
  | cons token tokens ih =>
      cases tokens with
      | nil => simpa using h
      | cons next tokens =>
          have hrest := ih fun other hother => h other (List.mem_cons_of_mem _ hother)
          rw [List.intercalate_cons_cons]
          simp [h token List.mem_cons_self, hrest]

end Marks

theorem isInert_placeholder (index : Nat) : IsInert (placeholder index) :=
  ⟨isPlain_placeholder index, '#', List.mem_cons_self, by decide⟩

theorem eq_point_of_toLower {c : Char} (h : c.toLower = '.') : c = '.' := by
  unfold Char.toLower at h
  split at h
  next hupper =>
    have hsum : c.val + ('a'.val - 'A'.val) = '.'.val := congrArg Char.val h
    rw [UInt32.eq_sub_iff_add_eq.mpr hsum] at hupper
    exact absurd hupper (by decide)
  next => exact h

namespace Alike

variable {C : Char → Char → Prop} {p : Char → Prop} {W : Text → Text → Prop} {x y : Text}

/-- Texts that are alike up to names are the same unless there is a name in both. -/
theorem eq_or_name (h : Alike (Shared p) W x y) :
    (x = y ∧ ∀ c ∈ x, p c) ∨ ∃ a b, W a b ∧ a <:+: x ∧ b <:+: y := by
  rcases h.forall₂_or_name with hsame | ⟨front, a, back, front', b, back', rfl, rfl, hab, -, -⟩
  · refine .inl ?_
    clear h
    induction hsame with
    | nil => exact ⟨rfl, List.forall_mem_nil _⟩
    | cons hcd _ ih =>
        obtain ⟨rfl, hc⟩ := hcd
        exact ⟨congrArg _ ih.1, List.forall_mem_cons.mpr ⟨hc, ih.2⟩⟩
  · exact .inr ⟨a, b, hab, ⟨front, back, by simp⟩, ⟨front', back', by simp⟩⟩

/-- In the place of a placeholder there is one name. -/
theorem of_placeholder {index : Nat} (h : Alike C W (placeholder index) y) (hread : AreRead C W)
    (hchars : ∀ {c}, ¬ C '#' c) (hnames : ∀ {a b}, W a b → (∃ i, a = placeholder i) ∨ '#' ∉ a) :
    W (placeholder index) y := by
  generalize hx : placeholder index = x at h
  cases h with
  | nil => cases hx
  | char hcd => exact absurd ((List.cons.inj hx).1 ▸ hcd) hchars
  | @name a b x y hab h =>
      rcases hnames hab with ⟨i, rfl⟩ | hmark
      · -- the digits of a placeholder end at its second mark
        have hspan (number : Nat) (rest : Text) :
            ((placeholder number ++ rest).tail.dropWhile Text.isDigit).tail = rest := by
          have hdigits : ∀ c ∈ Nat.toDigits 10 number, Text.isDigit c := fun c hc =>
            isDigit_of_isDigit (Nat.isDigit_of_mem_toDigits (by decide) (by decide) hc)
          have htail : (placeholder number ++ rest).tail =
              Nat.toDigits 10 number ++ '#' :: rest := by
            simp [placeholder]
          rw [htail, List.dropWhile_append_of_pos hdigits,
            List.dropWhile_cons_of_neg (by simp [isDigit_mark])]
          rfl
        have hnil : x = [] := by
          rw [← hspan i x, ← hx, ← List.append_nil (placeholder index), hspan]
        subst hnil
        obtain rfl : y = [] := List.isEmpty_iff.mp (hread.isEmpty_eq h).symm
        rw [List.append_nil, List.append_nil]
        exact hab
      · obtain ⟨c, a, rfl, -⟩ := (hread.names hab).1.exists_cons
        obtain rfl : '#' = c := (List.cons.inj hx).1
        exact absurd List.mem_cons_self hmark

/-- What stands behind all names of a text ends the other one too. -/
theorem suffix_of_suffix (h : Alike (Shared p) W x y) {back : Text} (hback : back <:+ y)
    (hnames : ∀ {a b}, W a b → (∃ c ∈ b, c ∉ back) ∧ ∀ c ∈ back.head?, c ∉ b) : back <:+ x := by
  induction h with
  | nil => exact hback
  | @char c d x y hcd h ih =>
      rcases List.suffix_cons_iff.mp hback with rfl | hback
      · obtain ⟨rfl, -⟩ := hcd
        rcases h.eq_or_name with ⟨rfl, -⟩ | ⟨a, b, hab, -, hb⟩
        · exact List.suffix_refl _
        · obtain ⟨⟨e, he, hout⟩, -⟩ := hnames hab
          exact absurd (List.mem_cons_of_mem _ (hb.subset he)) hout
      · exact (ih hback).trans (List.suffix_cons _ _)
  | @name a b x y hab h ih =>
      suffices hrest : back <:+ y from (ih hrest).trans (List.suffix_append _ _)
      obtain ⟨front, hfront⟩ := hback
      rcases List.append_eq_append_iff.mp hfront with
        ⟨rest, hname, hbehind⟩ | ⟨rest, hname, hbehind⟩
      · cases rest with
        | nil => exact ⟨[], hbehind⟩
        | cons c rest =>
            refine absurd ?_ ((hnames hab).2 c (by rw [hbehind]; rfl))
            rw [hname]
            exact List.mem_append_right _ List.mem_cons_self
      · exact ⟨rest, hbehind.symm⟩

/-- A text that ends like the name of a file has the ending in common with the other one. -/
theorem endsCaseless_idf (h : Alike (Shared p) W x y)
    (hnames : ∀ {a b}, W a b → '.' ∉ b ∧ ∃ c ∈ b, c.toLower ∉ idfSuffix)
    (hy : Text.endsCaseless idfSuffix y) : Text.endsCaseless idfSuffix x := by
  obtain ⟨front, hfront⟩ := List.isSuffixOf_iff_suffix.mp hy
  obtain ⟨front, back, rfl, -, hback⟩ := List.map_eq_append_iff.mp hfront.symm
  have hsuffix : back <:+ x := by
    refine h.suffix_of_suffix (List.suffix_append _ _) fun hab => ?_
    obtain ⟨hpoint, c, hc, hout⟩ := hnames hab
    refine ⟨⟨c, hc, fun hmem => hout (hback ▸ List.mem_map_of_mem hmem)⟩, fun d hd hmem => ?_⟩
    obtain ⟨rest, rfl⟩ := List.head?_eq_some_iff.mp hd
    obtain rfl := eq_point_of_toLower (List.cons.inj hback).1
    exact hpoint hmem
  obtain ⟨rest, rfl⟩ := hsuffix
  refine Text.endsCaseless_append rest (List.isSuffixOf_iff_suffix.mpr ?_)
  exact hback ▸ List.suffix_refl _

end Alike

end Expression

end MapAlgebra
