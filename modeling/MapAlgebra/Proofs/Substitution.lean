import MapAlgebra.Proofs.Pairs

/-!
# Names and placeholders

Putting placeholders in the place of names leaves the rest of a text as it is, and brings nothing
into it that is spelled with other characters than those of placeholders.
-/

namespace MapAlgebra

namespace Text

theorem hasPart_iff {part text : Text} : hasPart part text ↔ part <:+: text := by
  induction text with
  | nil => simp [hasPart]
  | cons c rest ih => simp [hasPart, ih, List.infix_cons_iff]

/-- A part that shares no character with the middle of a text lies on one side of it. -/
theorem infix_or_of_disjoint {part front middle back : Text} (hmiddle : middle ≠ [])
    (hdisjoint : ∀ c ∈ middle, c ∉ part) (h : part <:+: front ++ middle ++ back) :
    part <:+: front ∨ part <:+: back := by
  obtain ⟨before, after, h⟩ := h
  rw [List.append_assoc front, List.append_eq_append_iff] at h
  rcases h with ⟨rest, hfront, -⟩ | ⟨rest, hpart, hbehind⟩
  · exact .inl ⟨before, rest, hfront.symm⟩
  rw [List.append_eq_append_iff] at hpart
  rcases hpart with ⟨front', rfl, rfl⟩ | ⟨front', rfl, rfl⟩
  -- the part begins in front of the middle, so it ends there too
  · cases rest with
    | nil => exact .inl ⟨before, [], by simp⟩
    | cons c rest =>
        obtain ⟨d, middle, rfl⟩ := List.exists_cons_of_ne_nil hmiddle
        obtain rfl : d = c := (List.cons.inj hbehind).1
        exact absurd (by simp) (hdisjoint d List.mem_cons_self)
  · rw [List.append_assoc, List.append_eq_append_iff] at hbehind
    rcases hbehind with ⟨rest, rfl, rfl⟩ | ⟨rest, rfl, hback⟩
    · exact .inr ⟨rest, after, List.append_assoc _ _ _⟩
    · cases rest with
      | nil => exact .inr ⟨[], after, hback⟩
      | cons c rest =>
          cases part with
          | nil => exact .inr (List.nil_infix)
          | cons d part =>
              obtain rfl : d = c := (List.cons.inj hback).1
              exact absurd List.mem_cons_self (hdisjoint d (by simp))

end Text

namespace Expression

/-- Placeholders are spelled with digits and their mark. -/
theorem mark_or_isDigit_of_mem {index : Nat} {c : Char} (h : c ∈ placeholder index) :
    c = '#' ∨ c.isDigit := by
  rcases List.mem_cons.mp h with rfl | h
  · exact .inl rfl
  · rcases List.mem_append.mp h with h | h
    · exact .inr (Nat.isDigit_of_mem_toDigits (by decide) (by decide) h)
    · exact .inl (List.mem_singleton.mp h)

/-- What is given back for a text that begins with a name is the text behind the name. -/
theorem dropCaseless?_eq_some {name text rest : Text}
    (h : Text.dropCaseless? name text = some rest) : rest = text.drop name.length := by
  fun_induction Text.dropCaseless? name text with
  | case1 text => exact (Option.some.inj h).symm
  | case2 => cases h
  | case3 wanted name c text _ ih => exact ih h
  | case4 => cases h

theorem behindName?_eq_drop {name text rest : Text} {before : Option Char}
    (h : behindName? name before text = some rest) : rest = text.drop name.length := by
  unfold behindName? at h
  split at h
  next => cases h
  next =>
    split at h
    next => cases h
    next found hfound =>
      split at h
      next => cases h
      next =>
        rw [← Option.some.inj h]
        exact dropCaseless?_eq_some hfound

/-- The places of a name in a text leave nothing of the text out. -/
theorem flatMap_source_cut (name : Text) (before : Option Char) (text : Text) :
    (cut name before text).flatMap Piece.source = text := by
  fun_induction cut name before text with
  | case1 before h => rfl
  | case2 before h => rfl
  | case3 before c tail h ih => simp [Piece.source, ih]
  | case4 before c tail rest h hname ih => simp [Piece.source, ih]
  | case5 before c tail rest h hname ih =>
      rw [List.flatMap_cons, ih, Piece.source, behindName?_eq_drop h, List.take_append_drop]

/-- What is spelled without the characters of a token was in the text before the token took the
place of a name. -/
theorem infix_of_replaced {part token : Text} {f : Char → Char} (hne : token ≠ [])
    (hdisjoint : ∀ c ∈ token.map f, c ∉ part) {pieces : List Piece} {front : Text}
    (h : part <:+: (front ++ pieces.flatMap (Piece.replaced token)).map f) :
    part <:+: (front ++ pieces.flatMap Piece.source).map f := by
  induction pieces generalizing front with
  | nil => exact h
  | cons piece pieces ih =>
      cases piece with
      | char c =>
          have hfront (rest : Text) : front ++ ([c] ++ rest) = (front ++ [c]) ++ rest :=
            (List.append_assoc _ _ _).symm
          rw [List.flatMap_cons, Piece.replaced, hfront] at h
          rw [List.flatMap_cons, Piece.source, hfront]
          exact ih h
      | name spelled =>
          rw [List.flatMap_cons, Piece.replaced, ← List.append_assoc, List.map_append,
            List.map_append] at h
          rw [List.flatMap_cons, Piece.source, List.map_append, List.map_append]
          rcases Text.infix_or_of_disjoint (by simpa using hne) hdisjoint h with hfront | hback
          · exact hfront.trans (List.prefix_append _ _).isInfix
          · have hrest : part <:+: ([] ++ pieces.flatMap Piece.source).map f := ih hback
            exact (hrest.trans (List.suffix_append _ _).isInfix).trans
              (List.suffix_append _ _).isInfix

/-- What is spelled with neither digits nor the mark of placeholders is in a prepared text only if
it is in the expression. -/
theorem infix_of_prepare {source : Text} {names : List Text} {prepared : Prepared} {part : Text}
    {f : Char → Char} (hdisjoint : ∀ index, ∀ c ∈ (placeholder index).map f, c ∉ part)
    (h : prepare source names = .ok prepared) (hpart : part <:+: prepared.text.map f) :
    part <:+: (Text.squeeze source).map f := by
  refine prepare_induction (p := fun prepared => part <:+: prepared.text.map f →
    part <:+: (Text.squeeze source).map f) h id (fun before index name _ ih hpart => ih ?_) hpart
  unfold Prepared.substitute at hpart
  dsimp only at hpart
  split at hpart
  next =>
    have hsource : part <:+: ([] ++ (cut name none before.text).flatMap Piece.source).map f :=
      infix_of_replaced (List.cons_ne_nil _ _) (hdisjoint index) hpart
    rwa [List.nil_append, flatMap_source_cut] at hsource
  next => exact hpart

end Expression

end MapAlgebra
