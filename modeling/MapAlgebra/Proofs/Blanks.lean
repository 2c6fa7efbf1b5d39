import MapAlgebra.Proofs.LoopHeads

/-!
# Blanks and words

A text is divided into the blanks at its ends and what stands between them. A line is read from the
left: a keyword, the blanks behind it, the characters of a name.
-/

namespace MapAlgebra.Script

section Trimming

variable {keep : Char → Bool} {word text front rest : Text}

theorem span_eq_iff : Text.span keep text = (front, rest) ↔
    text = front ++ rest ∧ (∀ c ∈ front, keep c) ∧ ∀ c ∈ rest.head?, keep c = false := by
  constructor
  · intro h
    obtain ⟨rfl, rfl⟩ := Prod.ext_iff.mp h
    refine ⟨(List.takeWhile_append_dropWhile ..).symm, fun c hc => List.mem_takeWhile_imp hc, ?_⟩
    intro c hc
    have hhead := List.head?_dropWhile_not keep text
    have hc : (text.dropWhile keep).head? = some c := hc
    rw [hc] at hhead
    exact hhead
  · rintro ⟨rfl, hfront, hrest⟩
    cases rest with
    | nil =>
        rw [List.append_nil, Text.span, List.takeWhile_eq_self_iff.mpr hfront,
          List.dropWhile_eq_nil_iff.mpr hfront]
    | cons c rest => exact span_append_cons hfront (hrest c rfl) rest

theorem trimLeft_eq_iff : Text.trimLeft text = rest ↔
    ∃ front, text = front ++ rest ∧ (∀ c ∈ front, Text.isBlank c) ∧
      ∀ c ∈ rest.head?, Text.isBlank c = false := by
  have hspan (front : Text) := @span_eq_iff Text.isBlank text front rest
  constructor
  · rintro rfl
    exact ⟨_, (hspan _).mp rfl⟩
  · rintro ⟨front, h⟩
    exact congrArg Prod.snd ((hspan front).mpr h)

theorem exists_trimLeft (text : Text) : ∃ front rest, text = front ++ rest ∧
    (∀ c ∈ front, Text.isBlank c) ∧ ∀ c ∈ rest.head?, Text.isBlank c = false := by
  obtain ⟨front, h⟩ := trimLeft_eq_iff.mp (Eq.refl (Text.trimLeft text))
  exact ⟨front, _, h⟩

theorem exists_trimRight (text : Text) :
    ∃ behind, text = Text.trimRight text ++ behind ∧ ∀ c ∈ behind, Text.isBlank c := by
  obtain ⟨front, htext, hfront, -⟩ := trimLeft_eq_iff.mp (Eq.refl (Text.trimLeft text.reverse))
  refine ⟨front.reverse, ?_, fun c hc => hfront c (List.mem_reverse.mp hc)⟩
  have hreverse := congrArg List.reverse htext
  rwa [List.reverse_reverse, List.reverse_append] at hreverse

theorem trimRight_append_of_blank {text behind : Text} (h : ∀ c ∈ behind, Text.isBlank c) :
    Text.trimRight (text ++ behind) = Text.trimRight text := by
  unfold Text.trimRight
  rw [List.reverse_append, List.dropWhile_append_of_pos fun c hc => h c (List.mem_reverse.mp hc)]

theorem trimRight_concat (front : Text) {c : Char} (h : Text.isBlank c = false) :
    Text.trimRight (front ++ [c]) = front ++ [c] := by
  unfold Text.trimRight
  rw [List.reverse_concat, List.dropWhile_cons_of_neg (by simp [h]), List.reverse_cons,
    List.reverse_reverse]

theorem isPrefix_trimRight (text : Text) : Text.trimRight text <+: text := by
  obtain ⟨behind, htext, -⟩ := exists_trimRight text
  exact ⟨behind, htext.symm⟩

theorem trimLeft_append_cons (front : Text) {c : Char} (h : Text.isBlank c = false) (rest : Text) :
    Text.trimLeft (front ++ c :: rest) = Text.trimLeft front ++ c :: rest := by
  unfold Text.trimLeft
  rw [List.dropWhile_append]
  split
  next hblank =>
    rw [List.isEmpty_iff.mp hblank, List.nil_append, List.dropWhile_cons_of_neg (by simp [h])]
  next => rfl

theorem exists_trim_append_cons (front : Text) {c : Char} (h : Text.isBlank c = false)
    (rest : Text) :
    ∃ rest', Text.trim (front ++ c :: rest) = Text.trimLeft front ++ c :: rest' := by
  obtain ⟨rest', hright⟩ := exists_trimRight_append_cons front h rest
  exact ⟨rest', by rw [Text.trim, hright, trimLeft_append_cons front h]⟩

theorem length_trimLeft_le_of_prefix (h : front <+: text) :
    (Text.trimLeft front).length ≤ (Text.trimLeft text).length := by
  obtain ⟨behind, rfl⟩ := h
  unfold Text.trimLeft
  rw [List.dropWhile_append]
  split
  next hblank => simp [List.isEmpty_iff.mp hblank]
  next => rw [List.length_append]; omega

theorem length_trim_le_of_prefix (h : front <+: text) :
    (Text.trim front).length ≤ (Text.trimLeft text).length :=
  length_trimLeft_le_of_prefix ((isPrefix_trimRight front).trans h)

/-- A text has blanks at its ends, and what is left of it between them. -/
theorem exists_trim (text : Text) : ∃ front behind, text = front ++ (Text.trim text ++ behind) ∧
    (∀ c ∈ front, Text.isBlank c) ∧ ∀ c ∈ behind, Text.isBlank c := by
  obtain ⟨behind, htext, hbehind⟩ := exists_trimRight text
  obtain ⟨front, htrim, hfront, -⟩ := trimLeft_eq_iff.mp (Eq.refl (Text.trim text))
  refine ⟨front, behind, ?_, hfront, hbehind⟩
  rw [← List.append_assoc, ← htrim]
  exact htext

end Trimming

section Words

variable {word text rest : Text}

theorem dropBlanks?_eq_some_iff : dropBlanks? text = some rest ↔
    ∃ gap, text = gap ++ rest ∧ gap ≠ [] ∧ (∀ c ∈ gap, Text.isBlank c) ∧
      ∀ c ∈ rest.head?, Text.isBlank c = false := by
  unfold dropBlanks?
  constructor
  · intro h
    split at h
    next hblank =>
      obtain ⟨gap, htext, hgap, hrest⟩ := trimLeft_eq_iff.mp (Option.some.inj h)
      refine ⟨gap, htext, ?_, hgap, hrest⟩
      rintro rfl
      rw [List.nil_append] at htext
      subst htext
      obtain ⟨c, hc, hcblank⟩ := (Option.any_eq_true ..).mp hblank
      rw [hrest c hc] at hcblank
      cases hcblank
    next => cases h
  · rintro ⟨gap, rfl, hne, hgap, hrest⟩
    obtain ⟨c, gap', rfl⟩ := List.exists_cons_of_ne_nil hne
    have hblank : ((c :: gap' ++ rest).head?).any Text.isBlank := hgap c List.mem_cons_self
    rw [if_pos hblank, trimLeft_eq_iff.mpr ⟨_, rfl, hgap, hrest⟩]

theorem dropWord?_eq_some_iff : dropWord? word text = some rest ↔
    ∃ front, text = front ++ rest ∧ Text.upperAscii front = word := by
  unfold dropWord? beginsWith
  constructor
  · intro h
    split at h
    next hbegins =>
      refine ⟨text.take word.length, ?_, ?_⟩
      · rw [← Option.some.inj h, List.take_append_drop]
      · have hprefix := List.prefix_iff_eq_take.mp (List.isPrefixOf_iff_prefix.mp hbegins)
        unfold Text.upperAscii at hprefix ⊢
        rw [List.map_take]
        exact hprefix.symm
    next => cases h
  · rintro ⟨front, rfl, rfl⟩
    have hlength : (Text.upperAscii front).length = front.length := List.length_map _
    have hbegins : (Text.upperAscii front).isPrefixOf (Text.upperAscii (front ++ rest)) := by
      rw [List.isPrefixOf_iff_prefix, Text.upperAscii, Text.upperAscii, List.map_append]
      exact List.prefix_append _ _
    rw [if_pos hbegins, hlength, List.drop_left]

/-- A character is no blank if its upper case is none. -/
theorem isBlank_of_toUpper {c : Char} (h : Text.isBlank c.toUpper = false) :
    Text.isBlank c = false := by
  by_contra hblank
  rw [Bool.not_eq_false] at hblank
  have hself : c.toUpper = c := by
    unfold Char.toUpper
    split
    next hletter =>
      have hleast : 97 ≤ c.toNat := UInt32.le_iff_toNat_le.mp hletter.1
      have hgreatest : c.toNat ≤ 122 := UInt32.le_iff_toNat_le.mp hletter.2
      unfold Text.isBlank at hblank
      simp at hblank
      omega
    next => rfl
  rw [hself, hblank] at h
  cases h

theorem not_mem_of_upperAscii {word : Text} {c : Char} (h : c.toUpper ∉ Text.upperAscii word) :
    c ∉ word :=
  fun hmem => h (List.mem_map_of_mem hmem)

/-- The first letter of a keyword is no blank. -/
theorem isBlank_of_upperAscii {word letters : Text} {letter : Char}
    (h : Text.upperAscii word = letter :: letters) (hletter : Text.isBlank letter = false) :
    ∃ c rest, word = c :: rest ∧ Text.isBlank c = false := by
  cases word with
  | nil => cases h
  | cons c rest =>
      cases h
      exact ⟨c, rest, rfl, isBlank_of_toUpper hletter⟩

/-- A line has a keyword in front if it has the letters of it there, behind blanks alone. -/
theorem dropWord?_trimLeft_eq_some_iff {letter : Char} {letters : Text}
    (hletter : Text.isBlank letter = false) :
    dropWord? (letter :: letters) (Text.trimLeft text) = some rest ↔
      ∃ front word, text = front ++ (word ++ rest) ∧ (∀ c ∈ front, Text.isBlank c) ∧
        Text.upperAscii word = letter :: letters := by
  rw [dropWord?_eq_some_iff]
  constructor
  · rintro ⟨word, htrim, hupper⟩
    obtain ⟨front, htext, hfront, -⟩ := trimLeft_eq_iff.mp htrim
    exact ⟨front, word, htext, hfront, hupper⟩
  · rintro ⟨front, word, htext, hfront, hupper⟩
    obtain ⟨c, behind, rfl, hc⟩ := isBlank_of_upperAscii hupper hletter
    have hhead : ∀ d ∈ (c :: behind ++ rest).head?, Text.isBlank d = false :=
      fun d hd => by cases hd; exact hc
    exact ⟨c :: behind, trimLeft_eq_iff.mpr ⟨front, htext, hfront, hhead⟩, hupper⟩

/-- No blank is a character of names. -/
theorem isWord_of_isBlank {c : Char} (h : Text.isBlank c) : Text.isWord c = false := by
  have hall : ∀ n ∈ [9, 10, 11, 12, 13, 28, 29, 30, 31, 32, 0x85, 0xA0, 0x1680, 0x2000, 0x2001,
      0x2002, 0x2003, 0x2004, 0x2005, 0x2006, 0x2007, 0x2008, 0x2009, 0x200A, 0x2028, 0x2029,
      0x202F, 0x205F, 0x3000], Text.isWord (Char.ofNat n) = false := by decide +kernel
  have hcode := hall c.toNat (by
    unfold Text.isBlank at h
    simp at h
    simp only [List.mem_cons, List.not_mem_nil, or_false]
    omega)
  rwa [Char.ofNat_toNat] at hcode

theorem isBlank_of_isWord {c : Char} (h : Text.isWord c) : Text.isBlank c = false := by
  by_contra hblank
  rw [isWord_of_isBlank (by simpa using hblank)] at h
  cases h

end Words

end MapAlgebra.Script
