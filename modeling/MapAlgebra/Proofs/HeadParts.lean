import MapAlgebra.Proofs.Blanks
import MapAlgebra.Proofs.Substitution

/-!
# Parts of loop heads

The head of a loop is read from the left, and each of its parts ends where the next one begins.
What stands behind the word `TO` has no influence on the parts in front of it.
-/

namespace MapAlgebra.Script

/-- What stands behind the word `FOR` and the blanks behind it. -/
def behindFor? (text : Text) : Option Text := do
  dropBlanks? (← dropWord? ['F', 'O', 'R'] (Text.trimLeft text))

/-- The parts of a loop head in front of the word `TO`, and what stands behind it. -/
def frontParts? (text : Text) : Option ((Text × Bool × Text) × Text) := do
  let (name, rest) := Text.span Text.isWord text
  let '=' :: rest := Text.trimLeft rest | none
  let (negative, rest) := Reading.sign (Text.trimLeft rest)
  let (digits, rest) := Text.span Text.isDigit rest
  if name.isEmpty || digits.isEmpty then
    none
  return ((name, negative, digits), ← dropWord? ['T', 'O'] (← dropBlanks? rest))

/-- The parts of a loop head behind the word `FOR`. -/
def headParts? (text : Text) : Option (Text × Bool × Text × Text) := do
  let ((name, negative, digits), rest) ← frontParts? text
  return (name, negative, digits, ← lastText? rest)

theorem loopParts?_eq (text : Text) : loopParts? text = (behindFor? text).bind headParts? := by
  unfold loopParts? behindFor? headParts? frontParts?
  simp only [Option.bind_eq_bind, Option.pure_def]
  rw [Option.bind_assoc]
  congr 1
  funext rest
  congr 1
  funext rest
  generalize (Text.span Text.isWord rest).2.trimLeft = behind
  by_cases hequal : ∃ rest', behind = '=' :: rest'
  · obtain ⟨rest', rfl⟩ := hequal
    show (if _ then _ else _) = Option.bind (if _ then _ else _) _
    split_ifs
    · rfl
    · rw [Option.bind_assoc]
      congr 1
      funext rest
      rw [Option.bind_assoc]
      rfl
  · -- without an equal sign there are no parts on either side
    have hother (rest' : Text) : behind ≠ '=' :: rest' := fun h => hequal ⟨rest', h⟩
    simp

theorem digit_ne {c d : Char} (h : Text.isDigit c) (hd : Text.isDigit d = false) : c ≠ d := by
  rintro rfl
  rw [h] at hd
  cases hd

theorem not_mem_of_forall {keep : Char → Bool} {text : Text} (h : ∀ c ∈ text, keep c) {d : Char}
    (hd : keep d = false) : d ∉ text := by
  intro hmem
  rw [h d hmem] at hd
  cases hd

theorem exists_sign (text : Text) : ∃ sign, text = sign ++ (Reading.sign text).2 ∧
    (sign, (Reading.sign text).1) ∈ [([], false), (['+'], false), (['-'], true)] := by
  unfold Reading.sign
  split
  next => exact ⟨['-'], rfl, by simp⟩
  next => exact ⟨['+'], rfl, by simp⟩
  next => exact ⟨[], rfl, by simp⟩

/-- The front of a loop head behind the word `FOR`: the name, an equal sign, the first value and the
word `TO`, with blanks between them. -/
structure HeadFront where
  name : Text
  beforeEqual : Text
  behindEqual : Text
  negative : Bool
  sign : Text
  digits : Text
  beforeWord : Text
  word : Text
  name_ne : name ≠ []
  digits_ne : digits ≠ []
  beforeWord_ne : beforeWord ≠ []
  isWord_name : ∀ c ∈ name, Text.isWord c
  isDigit_digits : ∀ c ∈ digits, Text.isDigit c
  isBlank_gaps : ∀ gap ∈ [beforeEqual, behindEqual, beforeWord], ∀ c ∈ gap, Text.isBlank c
  sign_mem : (sign, negative) ∈ [([], false), (['+'], false), (['-'], true)]
  upper_word : Text.upperAscii word = ['T', 'O']

namespace HeadFront

variable (front : HeadFront)

def parts : Text × Bool × Text := (front.name, front.negative, front.digits)

def text : Text :=
  front.name ++ (front.beforeEqual ++ '=' :: (front.behindEqual ++ (front.sign ++ (front.digits ++
    (front.beforeWord ++ front.word)))))

theorem percent_not_mem : '%' ∉ front.text := by
  have hblank : Text.isBlank '%' = false := by decide
  have hgaps := front.isBlank_gaps
  have hsign : '%' ∉ front.sign := by
    have hmem := front.sign_mem
    simp only [List.mem_cons, Prod.mk.injEq, List.not_mem_nil, or_false] at hmem
    rcases hmem with ⟨h, -⟩ | ⟨h, -⟩ | ⟨h, -⟩ <;> rw [h] <;> decide
  have hto : '%' ∉ front.word := not_mem_of_upperAscii (by rw [front.upper_word]; decide)
  simp only [text, List.mem_append, List.mem_cons, not_or]
  exact ⟨not_mem_of_forall front.isWord_name (by decide),
    not_mem_of_forall (hgaps _ (by simp)) hblank, by decide,
    not_mem_of_forall (hgaps _ (by simp)) hblank, hsign,
    not_mem_of_forall front.isDigit_digits (by decide),
    not_mem_of_forall (hgaps _ (by simp)) hblank, hto⟩

theorem exists_cons : ∃ c rest, front.text = c :: rest ∧ Text.isBlank c = false := by
  obtain ⟨c, name, hname⟩ := List.exists_cons_of_ne_nil front.name_ne
  refine ⟨c, _, by rw [text, hname, List.cons_append], isBlank_of_isWord ?_⟩
  exact front.isWord_name c (hname ▸ List.mem_cons_self)

theorem sign_append (rest : Text) :
    Text.trimLeft (front.sign ++ (front.digits ++ rest)) = front.sign ++ (front.digits ++ rest) ∧
      Reading.sign (front.sign ++ (front.digits ++ rest)) =
        (front.negative, front.digits ++ rest) := by
  obtain ⟨d, digits, hdigits⟩ := List.exists_cons_of_ne_nil front.digits_ne
  have hd : Text.isDigit d := front.isDigit_digits d (by rw [hdigits]; exact List.mem_cons_self)
  have hmem := front.sign_mem
  simp only [List.mem_cons, Prod.mk.injEq, List.not_mem_nil, or_false] at hmem
  rcases hmem with ⟨hsign, hnegative⟩ | ⟨hsign, hnegative⟩ | ⟨hsign, hnegative⟩
  · rw [hsign, hnegative, hdigits]
    exact ⟨trimLeft_cons (isBlank_of_isDigit hd) _,
      sign_cons_of_ne (digit_ne hd (by decide)) (digit_ne hd (by decide)) _⟩
  · rw [hsign, hnegative]
    exact ⟨trimLeft_cons (by decide) _, rfl⟩
  · rw [hsign, hnegative]
    exact ⟨trimLeft_cons (by decide) _, rfl⟩

/-- What stands behind the word `TO` has no influence on the parts in front of it. -/
theorem frontParts?_append (rest : Text) :
    frontParts? (front.text ++ rest) = some (front.parts, rest) := by
  obtain ⟨g, gap, hgap⟩ := List.exists_cons_of_ne_nil front.beforeWord_ne
  obtain ⟨t, letters, hto, ht⟩ := isBlank_of_upperAscii front.upper_word (by decide)
  have hgaps := front.isBlank_gaps
  generalize hfirst :
    front.sign ++ (front.digits ++ (front.beforeWord ++ (front.word ++ rest))) = first
  have hname : Text.span Text.isWord (front.text ++ rest) =
      (front.name, front.beforeEqual ++ '=' :: (front.behindEqual ++ first)) := by
    refine span_eq_iff.mpr ⟨by simp [text, ← hfirst], front.isWord_name, fun c hc => ?_⟩
    cases hgap : front.beforeEqual with
    | nil =>
        rw [hgap] at hc
        cases hc
        decide
    | cons b blanks =>
        rw [hgap] at hc
        cases hc
        exact isWord_of_isBlank (hgaps front.beforeEqual (by simp) c (hgap ▸ List.mem_cons_self))
  have hequal : Text.trimLeft (front.beforeEqual ++ '=' :: (front.behindEqual ++ first)) =
      '=' :: (front.behindEqual ++ first) :=
    (List.dropWhile_append_of_pos (hgaps _ (by simp))).trans (trimLeft_cons (by decide) _)
  have hsign : Reading.sign (Text.trimLeft (front.behindEqual ++ first)) =
      (front.negative, front.digits ++ (front.beforeWord ++ (front.word ++ rest))) := by
    obtain ⟨htrim, hread⟩ := front.sign_append (front.beforeWord ++ (front.word ++ rest))
    rw [Text.trimLeft, List.dropWhile_append_of_pos (hgaps _ (by simp)), ← hfirst]
    exact (congrArg Reading.sign htrim).trans hread
  have hdigits :
      Text.span Text.isDigit (front.digits ++ (front.beforeWord ++ (front.word ++ rest))) =
        (front.digits, front.beforeWord ++ (front.word ++ rest)) := by
    refine span_eq_iff.mpr ⟨rfl, front.isDigit_digits, fun c hc => ?_⟩
    rw [hgap] at hc
    cases hc
    by_contra hdigit
    rw [Bool.not_eq_false] at hdigit
    have hblank := hgaps front.beforeWord (by simp) g (by rw [hgap]; exact List.mem_cons_self)
    rw [isBlank_of_isDigit hdigit] at hblank
    cases hblank
  have hgap : dropBlanks? (front.beforeWord ++ (front.word ++ rest)) =
      some (front.word ++ rest) := by
    refine dropBlanks?_eq_some_iff.mpr
      ⟨_, rfl, front.beforeWord_ne, hgaps _ (by simp), fun c hc => ?_⟩
    rw [hto] at hc
    cases hc
    exact ht
  have hword : dropWord? ['T', 'O'] (front.word ++ rest) = some rest :=
    dropWord?_eq_some_iff.mpr ⟨_, rfl, front.upper_word⟩
  have hname' : front.name.isEmpty = false := List.isEmpty_eq_false_iff.mpr front.name_ne
  have hdigits' : front.digits.isEmpty = false := List.isEmpty_eq_false_iff.mpr front.digits_ne
  unfold frontParts?
  simp only [hname, hequal, hsign, hdigits, hname', hdigits', hgap, hword,
    Option.bind_eq_bind, Option.bind_some, Bool.or_false, Bool.false_eq_true, if_false]
  rfl

end HeadFront

/-- The parts in front of the word `TO` are read from the front of a head. -/
theorem exists_headFront {text rest : Text} {parts : Text × Bool × Text}
    (h : frontParts? text = some (parts, rest)) :
    ∃ front : HeadFront, text = front.text ++ rest ∧ front.parts = parts := by
  unfold frontParts? at h
  generalize hname : Text.span Text.isWord text = found at h
  obtain ⟨name, behindName⟩ := found
  dsimp only at h
  split at h
  next behindEqual hequal =>
    generalize hsign : Reading.sign (Text.trimLeft behindEqual) = found at h
    obtain ⟨negative, behindSign⟩ := found
    dsimp only at h
    generalize hdigits : Text.span Text.isDigit behindSign = found at h
    obtain ⟨digits, behindDigits⟩ := found
    dsimp only at h
    split at h
    next => cases h
    next hnonempty =>
      obtain ⟨hnameNonempty, hdigitsNonempty⟩ : name ≠ [] ∧ digits ≠ [] := by
        simpa [not_or] using hnonempty
      obtain ⟨behindGap, hgap, h⟩ := Option.bind_eq_some_iff.mp h
      obtain ⟨behindWord, hword, h⟩ := Option.bind_eq_some_iff.mp h
      cases h
      obtain ⟨rfl, hwords, -⟩ := span_eq_iff.mp hname
      obtain ⟨beforeEqual, rfl, hbeforeEqual, -⟩ := trimLeft_eq_iff.mp hequal
      obtain ⟨rfl, hdigitChars, -⟩ := span_eq_iff.mp hdigits
      obtain ⟨sign, htrim, hmem⟩ := exists_sign (Text.trimLeft behindEqual)
      rw [hsign] at htrim hmem
      obtain ⟨behindEqual, rfl, hbehindEqual, -⟩ := trimLeft_eq_iff.mp htrim
      obtain ⟨gap, rfl, hgapNonempty, hgapBlank, -⟩ := dropBlanks?_eq_some_iff.mp hgap
      obtain ⟨word, rfl, hupper⟩ := dropWord?_eq_some_iff.mp hword
      refine ⟨⟨name, beforeEqual, behindEqual, negative, sign, digits, gap, word, hnameNonempty,
        hdigitsNonempty, hgapNonempty, hwords, hdigitChars, ?_, hmem, hupper⟩,
        by simp [HeadFront.text], rfl⟩
      · simp only [List.mem_cons, List.not_mem_nil, or_false]
        rintro gap' (rfl | rfl | rfl)
        · exact hbeforeEqual
        · exact hbehindEqual
        · exact hgapBlank
  next => cases h

/-- The last value is what a line has between blanks, at least one in front, and it is at least one
character. -/
def IsLastText (text : Text) : Prop :=
  ∃ gap last behind : Text, text = gap ++ (last ++ behind) ∧ gap ≠ [] ∧
    (∀ c ∈ gap, Text.isBlank c) ∧ last ≠ [] ∧ '\n' ∉ last ∧ ∀ c ∈ behind, Text.isBlank c

/-- Of blanks alone, the last one that is no line feed is taken. -/
theorem isLastText_of_find? {gap : Text} {c : Char} (hgap : ∀ d ∈ gap, Text.isBlank d)
    (h : (gap.drop 1).reverse.find? (· != '\n') = some c) : IsLastText gap := by
  obtain ⟨hfeed, front, back, hreverse, -⟩ := List.find?_eq_some_iff_append.mp h
  cases gap with
  | nil => cases h
  | cons b gap =>
      obtain rfl : gap = back.reverse ++ c :: front.reverse := by
        rw [List.drop_one, List.tail_cons] at hreverse
        rw [← List.reverse_reverse gap, hreverse]
        simp
      obtain ⟨hb, hblanks⟩ := List.forall_mem_cons.mp hgap
      obtain ⟨hback, hfront⟩ := List.forall_mem_append.mp hblanks
      exact ⟨b :: back.reverse, [c], front.reverse, rfl, List.cons_ne_nil _ _,
        List.forall_mem_cons.mpr ⟨hb, hback⟩, List.cons_ne_nil _ _,
        List.mem_singleton.not.mpr (bne_iff_ne.mp hfeed).symm, (List.forall_mem_cons.mp hfront).2⟩

theorem isLastText_of_isSome {text : Text} (h : (lastText? text).isSome) : IsLastText text := by
  obtain ⟨last, h⟩ := Option.isSome_iff_exists.mp h
  obtain ⟨rest, hrest, h⟩ := Option.bind_eq_some_iff.mp h
  obtain ⟨gap, rfl, hne, hgap, hhead⟩ := dropBlanks?_eq_some_iff.mp hrest
  split at h
  next hempty =>
    obtain rfl := List.isEmpty_iff.mp hempty
    obtain ⟨c, hc, -⟩ := Option.map_eq_some_iff.mp h
    rw [List.append_nil] at hc ⊢
    exact isLastText_of_find? hgap hc
  next hnonempty =>
    obtain ⟨c, rest, rfl⟩ := List.exists_cons_of_ne_nil (by simpa using hnonempty)
    obtain ⟨rest', hcut⟩ := exists_trimRight_append_cons [] (hhead c rfl) rest
    obtain ⟨behind, htext, hbehind⟩ := exists_trimRight (c :: rest)
    dsimp only at h
    split at h
    next => cases h
    next hfeed =>
      refine ⟨gap, Text.trimRight (c :: rest), behind, by rw [← htext], hne, hgap, ?_,
        by simpa [List.contains_eq_mem] using hfeed, hbehind⟩
      rw [List.nil_append, List.nil_append] at hcut
      rw [hcut]
      exact List.cons_ne_nil _ _

theorem IsLastText.isSome {text : Text} (h : IsLastText text) : (lastText? text).isSome := by
  obtain ⟨gap, last, behind, rfl, hne, hgap, hlast, hfeed, hbehind⟩ := h
  obtain ⟨blanks, rest, rfl, hblanks, hrest⟩ := exists_trimLeft last
  unfold lastText?
  cases rest with
  | nil =>
      have hdrop : dropBlanks? (gap ++ (blanks ++ [] ++ behind)) = some [] := by
        refine dropBlanks?_eq_some_iff.mpr ⟨_, (List.append_nil _).symm, by simp [hne], ?_, nofun⟩
        simpa [or_imp, forall_and] using ⟨hgap, hblanks, hbehind⟩
      obtain ⟨g, gap, rfl⟩ := List.exists_cons_of_ne_nil hne
      obtain ⟨c, last, hlast⟩ := List.exists_cons_of_ne_nil hlast
      have hmem : c ∈ ((g :: gap ++ (blanks ++ [] ++ behind)).drop 1).reverse := by
        rw [hlast]
        simp
      have hc : c ≠ '\n' := fun heq => hfeed (heq ▸ hlast ▸ List.mem_cons_self)
      rw [hdrop, Option.bind_eq_bind, Option.bind_some, if_pos List.isEmpty_nil, Option.isSome_map,
        List.find?_isSome]
      exact ⟨c, hmem, bne_iff_ne.mpr hc⟩
  | cons c rest =>
      have hdrop : dropBlanks? (gap ++ (blanks ++ c :: rest ++ behind)) =
          some (c :: rest ++ behind) :=
        dropBlanks?_eq_some_iff.mpr ⟨gap ++ blanks, by simp, by simp [hne],
          List.forall_mem_append.mpr ⟨hgap, hblanks⟩, hrest⟩
      have hcut : Text.trimRight (c :: rest ++ behind) <+: c :: rest := by
        rw [trimRight_append_of_blank hbehind]
        exact isPrefix_trimRight _
      have hnone : (Text.trimRight (c :: rest ++ behind)).contains '\n' = false := by
        rw [List.contains_eq_mem, decide_eq_false_iff_not]
        exact fun hmem => hfeed (List.mem_append_right _ (hcut.subset hmem))
      rw [hdrop, Option.bind_eq_bind, Option.bind_some, if_neg (by simp)]
      dsimp only
      rw [hnone]
      rfl

theorem isSome_lastText?_iff {text : Text} : (lastText? text).isSome ↔ IsLastText text :=
  ⟨isLastText_of_isSome, IsLastText.isSome⟩

theorem IsLastText.append_blank {text behind : Text} (h : IsLastText text)
    (hbehind : ∀ c ∈ behind, Text.isBlank c) : IsLastText (text ++ behind) := by
  obtain ⟨gap, last, rest, rfl, hgapNonempty, hgap, hlast, hfeed, hrest⟩ := h
  exact ⟨gap, last, rest ++ behind, by simp, hgapNonempty, hgap, hlast, hfeed,
    List.forall_mem_append.mpr ⟨hrest, hbehind⟩⟩

theorem isSome_headParts?_iff {text : Text} : (headParts? text).isSome ↔
    ∃ (front : HeadFront) (behind : Text), text = front.text ++ behind ∧ IsLastText behind := by
  constructor
  · intro h
    obtain ⟨parts, h⟩ := Option.isSome_iff_exists.mp h
    obtain ⟨⟨parts, behind⟩, hparts, h⟩ := Option.bind_eq_some_iff.mp h
    obtain ⟨last, hlast, -⟩ := Option.bind_eq_some_iff.mp h
    obtain ⟨front, rfl, -⟩ := exists_headFront hparts
    exact ⟨front, behind, rfl, isSome_lastText?_iff.mp (Option.isSome_of_mem hlast)⟩
  · rintro ⟨front, behind, rfl, hbehind⟩
    obtain ⟨last, hlast⟩ := Option.isSome_iff_exists.mp (isSome_lastText?_iff.mpr hbehind)
    unfold headParts?
    rw [front.frontParts?_append]
    simp [hlast]

/-- How a line begins that has the word `FOR` in front. -/
theorem behindFor?_eq_some_iff {text rest : Text} : behindFor? text = some rest ↔
    ∃ front word gap : Text, text = front ++ (word ++ (gap ++ rest)) ∧
      (∀ c ∈ front, Text.isBlank c) ∧ Text.upperAscii word = ['F', 'O', 'R'] ∧ gap ≠ [] ∧
      (∀ c ∈ gap, Text.isBlank c) ∧ ∀ c ∈ rest.head?, Text.isBlank c = false := by
  have hletter : Text.isBlank 'F' = false := by decide
  constructor
  · intro h
    obtain ⟨behindWord, hword, hgap⟩ := Option.bind_eq_some_iff.mp h
    obtain ⟨front, word, htext, hfront, hupper⟩ :=
      (dropWord?_trimLeft_eq_some_iff hletter).mp hword
    obtain ⟨gap, rfl, hne, hblank, hrest⟩ := dropBlanks?_eq_some_iff.mp hgap
    exact ⟨front, word, gap, htext, hfront, hupper, hne, hblank, hrest⟩
  · rintro ⟨front, word, gap, rfl, hfront, hupper, hne, hblank, hrest⟩
    exact Option.bind_eq_some_iff.mpr ⟨gap ++ rest,
      (dropWord?_trimLeft_eq_some_iff hletter).mpr ⟨front, word, rfl, hfront, hupper⟩,
      dropBlanks?_eq_some_iff.mpr ⟨gap, rfl, hne, hblank, hrest⟩⟩

/-- A line is read as the head of a loop if it has the word `FOR`, the front of a head and a last
value, with blanks between them. -/
theorem isSome_loopParts?_iff {text : Text} : (loopParts? text).isSome ↔
    ∃ (front word gap : Text) (head : HeadFront) (behind : Text),
      text = front ++ (word ++ (gap ++ (head.text ++ behind))) ∧
      (∀ c ∈ front, Text.isBlank c) ∧ Text.upperAscii word = ['F', 'O', 'R'] ∧ gap ≠ [] ∧
      (∀ c ∈ gap, Text.isBlank c) ∧ IsLastText behind := by
  rw [loopParts?_eq]
  constructor
  · intro h
    obtain ⟨parts, h⟩ := Option.isSome_iff_exists.mp h
    obtain ⟨rest, hrest, hparts⟩ := Option.bind_eq_some_iff.mp h
    obtain ⟨front, word, gap, rfl, hfront, hupper, hne, hgap, -⟩ := behindFor?_eq_some_iff.mp hrest
    obtain ⟨head, behind, rfl, hbehind⟩ := isSome_headParts?_iff.mp (Option.isSome_of_mem hparts)
    exact ⟨front, word, gap, head, behind, rfl, hfront, hupper, hne, hgap, hbehind⟩
  · rintro ⟨front, word, gap, head, behind, rfl, hfront, hupper, hne, hgap, hbehind⟩
    obtain ⟨c, rest, htext, hc⟩ := head.exists_cons
    have hrest : behindFor? (front ++ (word ++ (gap ++ (head.text ++ behind)))) =
        some (head.text ++ behind) := by
      refine behindFor?_eq_some_iff.mpr ⟨front, word, gap, rfl, hfront, hupper, hne, hgap, ?_⟩
      intro d hd
      rw [htext] at hd
      cases hd
      exact hc
    rw [hrest]
    exact isSome_headParts?_iff.mpr ⟨head, behind, rfl, hbehind⟩

theorem eq_space_of_toUpper {c : Char} (hupper : c.toUpper = ' ') : c = ' ' := by
  have h := hupper
  unfold Char.toUpper at h
  split at h
  next hletter =>
    have hgreatest : c.toNat ≤ 122 := UInt32.le_iff_toNat_le.mp hletter.2
    have hall : ∀ n ≤ 122, (Char.ofNat n).toUpper = ' ' → Char.ofNat n = ' ' := by decide +kernel
    have hcode := hall c.toNat hgreatest
    rw [Char.ofNat_toNat] at hcode
    exact hcode hupper
  next => exact h

/-- A line is the head of a loop for the search for its end if one blank and more stand behind the
word `FOR`, and the blank is a space. -/
theorem isLoopHead_iff {text : Text} : isLoopHead text ↔
    ∃ front word rest : Text, text = front ++ (word ++ ' ' :: rest) ∧
      (∀ c ∈ front, Text.isBlank c) ∧ Text.upperAscii word = ['F', 'O', 'R'] ∧
      ∃ c ∈ rest, Text.isBlank c = false := by
  constructor
  · intro h
    have hdrop : dropWord? ['F', 'O', 'R', ' '] (Text.trim text) = some ((Text.trim text).drop 4) :=
      if_pos h
    obtain ⟨begin, htrim, hupper⟩ := dropWord?_eq_some_iff.mp hdrop
    have hsplit : begin.map Char.toUpper = ['F', 'O', 'R'] ++ [' '] := hupper
    obtain ⟨word, space, rfl, hword, hspace⟩ := List.map_eq_append_iff.mp hsplit
    obtain ⟨d, rfl, hd⟩ := List.map_eq_singleton_iff.mp hspace
    obtain rfl := eq_space_of_toUpper hd
    obtain ⟨front, behind, htext, hfront, hbehind⟩ := exists_trim text
    generalize (Text.trim text).drop 4 = more at htrim hdrop
    refine ⟨front, word, more ++ behind, by rw [htext, htrim]; simp, hfront, hword, ?_⟩
    by_contra hnone
    simp only [not_exists, not_and, Bool.not_eq_false, List.mem_append] at hnone
    -- nothing but blanks behind the word is trimmed off together with the space
    have htail : ∀ c ∈ ' ' :: more ++ behind, Text.isBlank c := by
      intro c hc
      rcases List.mem_cons.mp hc with rfl | hc
      · decide
      · exact hnone c (List.mem_append.mp hc)
    have hshort : Text.trim text = Text.trim (front ++ word) := by
      rw [htext, htrim]
      unfold Text.trim
      have hcut : Text.trimRight (front ++ word ++ (' ' :: more ++ behind)) =
          Text.trimRight (front ++ word) := trimRight_append_of_blank htail
      rw [← hcut]
      simp
    have hle := length_trim_le_of_prefix (List.prefix_refl (front ++ word))
    rw [← hshort, htrim, Text.trimLeft, List.dropWhile_append_of_pos hfront] at hle
    have hcut := Text.length_dropWhile_le Text.isBlank word
    simp at hle
    omega
  · rintro ⟨front, word, rest, rfl, hfront, hupper, c, hmem, hc⟩
    obtain ⟨middle, more, rfl⟩ := List.append_of_mem hmem
    obtain ⟨f, letters, rfl, hf⟩ := isBlank_of_upperAscii hupper (by decide)
    obtain ⟨rest', htrim⟩ :=
      exists_trim_append_cons (front ++ (f :: letters ++ ' ' :: middle)) hc more
    have hleft : Text.trimLeft (front ++ (f :: letters ++ ' ' :: middle)) =
        f :: letters ++ ' ' :: middle :=
      trimLeft_eq_iff.mpr ⟨front, rfl, hfront, fun d hd => by cases hd; exact hf⟩
    unfold isLoopHead beginsWith
    have htext : front ++ (f :: letters ++ ' ' :: (middle ++ c :: more)) =
        front ++ (f :: letters ++ ' ' :: middle) ++ c :: more := by simp
    rw [htext, htrim, hleft, List.isPrefixOf_iff_prefix, List.append_assoc, Text.upperAscii,
      List.map_append]
    exact ⟨_, by rw [← Text.upperAscii, hupper]; rfl⟩

/-- Whether a line is the head of a loop, well worded or not. -/
def isHead (text : Text) : Bool :=
  (loopParts? text).isSome || isLoopHead text

theorem isHead_iff {text : Text} : isHead text ↔ LoopHead.ofText text ≠ .ok none := by
  unfold isHead LoopHead.ofText
  cases loopParts? text with
  | none => cases isLoopHead text <;> simp
  | some parts =>
      obtain ⟨name, negative, digits, last⟩ := parts
      dsimp only
      split
      next => simp
      next => split <;> simp

theorem isHead_eq_false_iff {text : Text} :
    isHead text = false ↔ LoopHead.ofText text = .ok none := by
  rw [← Bool.not_eq_true, isHead_iff, not_not]

section Substitution

variable {name : Text}

theorem sameLetter_percent {c : Char} (h : Text.sameLetter '%' c) : c = '%' := by
  have huncased : Text.isCased '%' = false := by decide
  unfold Text.sameLetter at h
  rw [huncased] at h
  simpa using Eq.symm (by simpa using h)

theorem dropCaseless?_percent_of_not_mem (part : Text) {text : Text} (h : '%' ∉ text) :
    Text.dropCaseless? (part ++ ['%']) text = none := by
  induction part generalizing text with
  | nil =>
      cases text with
      | nil => rfl
      | cons c text =>
          rw [List.nil_append, Text.dropCaseless?, if_neg]
          intro hletter
          rw [sameLetter_percent hletter] at h
          exact h List.mem_cons_self
  | cons wanted part ih =>
      cases text with
      | nil => rfl
      | cons c text =>
          rw [List.cons_append, Text.dropCaseless?, ih fun hmem => h (List.mem_cons_of_mem _ hmem)]
          split <;> rfl

theorem dropCaseless?_percent_append (part text : Text) {rest : Text} (h : '%' ∉ rest) :
    Text.dropCaseless? (part ++ ['%']) (text ++ rest) =
      (Text.dropCaseless? (part ++ ['%']) text).map (· ++ rest) := by
  induction part generalizing text with
  | nil =>
      cases text with
      | nil => exact dropCaseless?_percent_of_not_mem [] h
      | cons c text =>
          rw [List.nil_append, List.cons_append, Text.dropCaseless?,
            Text.dropCaseless?.eq_def _ (c :: text)]
          dsimp only
          split <;> rfl
  | cons wanted part ih =>
      cases text with
      | nil => exact dropCaseless?_percent_of_not_mem (wanted :: part) h
      | cons c text =>
          rw [List.cons_append, List.cons_append, Text.dropCaseless?, Text.dropCaseless?, ih]
          split <;> rfl

theorem behindVariable?_append_of_not_mem (text : Text) {rest : Text} (h : '%' ∉ rest) :
    behindVariable? name (text ++ rest) = (behindVariable? name text).map (· ++ rest) :=
  dropCaseless?_percent_append ('%' :: name) text h

/-- A text without a percent sign behind another has no influence on it. -/
theorem substitute_append_of_not_mem (value : Int) (text : Text) {rest : Text} (h : '%' ∉ rest) :
    substitute name value (text ++ rest) = substitute name value text ++ rest := by
  induction text using substitute.induct name with
  | case1 =>
      rw [substitute_of_not_mem List.not_mem_nil]
      exact substitute_of_not_mem h value
  | case2 c tail behind hbehind ih =>
      have happend : behindVariable? name (c :: tail ++ rest) = some (behind ++ rest) := by
        rw [behindVariable?_append_of_not_mem _ h, hbehind]
        rfl
      rw [substitute_of_eq_some happend, substitute_of_eq_some hbehind, ih, List.append_assoc]
  | case3 c tail hnone ih =>
      have happend : behindVariable? name (c :: (tail ++ rest)) = none := by
        rw [← List.cons_append, behindVariable?_append_of_not_mem _ h, hnone]
        rfl
      rw [List.cons_append, substitute_of_eq_none happend, substitute_of_eq_none hnone, ih,
        List.cons_append]

/-- A text without a percent sign in front of another has no influence on it. -/
theorem substitute_of_not_mem_append (value : Int) {front : Text} (h : '%' ∉ front) (text : Text) :
    substitute name value (front ++ text) = front ++ substitute name value text := by
  induction front with
  | nil => rfl
  | cons c front ih =>
      rw [List.mem_cons, not_or] at h
      rw [List.cons_append, substitute_of_eq_none (behindVariable?_of_ne (Ne.symm h.1) _), ih h.2,
        List.cons_append]

theorem exists_numeral (value : Int) : ∃ c rest, numeral value = c :: rest ∧
    ∀ d ∈ numeral value, d = '-' ∨ d.isDigit := by
  have hdigit (n : Nat) : ∀ d ∈ Nat.toDigits 10 n, d.isDigit := fun d hd =>
    Nat.isDigit_of_mem_toDigits (by decide) (by decide) hd
  cases value with
  | ofNat n =>
      have heq : numeral (Int.ofNat n) = Nat.toDigits 10 n := by
        simp [numeral, toString, Int.repr, Nat.repr]
      obtain ⟨c, rest, hcons⟩ := List.exists_cons_of_ne_nil
        (List.ne_nil_of_length_pos (Nat.length_toDigits_pos (b := 10) (n := n)))
      rw [heq]
      exact ⟨c, rest, hcons, fun d hd => .inr (hdigit n d hd)⟩
  | negSucc n =>
      have heq : numeral (Int.negSucc n) = '-' :: Nat.toDigits 10 (n + 1) := by
        simp [numeral, toString, Int.repr, Nat.repr]
      rw [heq]
      refine ⟨'-', _, rfl, fun d hd => ?_⟩
      exact (List.mem_cons.mp hd).imp_right (hdigit (n + 1) d)

theorem isBlank_of_mem_numeral {value : Int} {c : Char} (h : c ∈ numeral value) :
    Text.isBlank c = false := by
  obtain ⟨_, _, _, hnumeral⟩ := exists_numeral value
  rcases hnumeral c h with rfl | hdigit
  · decide
  · exact isBlank_of_isDigit (Expression.isDigit_of_isDigit hdigit)

/-- Characters of a text with a value in it are those of the text or of the value. -/
theorem mem_or_of_mem_substitute {value : Int} {text : Text} {c : Char}
    (h : c ∈ substitute name value text) : c ∈ text ∨ c ∈ numeral value := by
  induction text using substitute.induct name with
  | case1 =>
      rw [substitute_of_not_mem List.not_mem_nil] at h
      exact .inl h
  | case2 d tail behind hbehind ih =>
      rw [substitute_of_eq_some hbehind, List.mem_append] at h
      rcases h with h | h
      · exact .inr h
      · refine (ih h).imp_left fun hc => ?_
        rw [Expression.dropCaseless?_eq_some hbehind] at hc
        exact List.mem_of_mem_drop hc
  | case3 d tail hnone ih =>
      rw [substitute_of_eq_none hnone] at h
      rcases List.mem_cons.mp h with rfl | h
      · exact .inl List.mem_cons_self
      · exact (ih h).imp_left (List.mem_cons_of_mem _)

/-- A text that does not begin with a blank still does not with a value in it. -/
theorem exists_substitute_cons (value : Int) {c : Char} (h : Text.isBlank c = false) (rest : Text) :
    ∃ d rest', substitute name value (c :: rest) = d :: rest' ∧ Text.isBlank d = false := by
  cases hbehind : behindVariable? name (c :: rest) with
  | none => exact ⟨c, _, substitute_of_eq_none hbehind value, h⟩
  | some behind =>
      obtain ⟨d, digits, hcons, -⟩ := exists_numeral value
      refine ⟨d, digits ++ substitute name value behind, ?_, ?_⟩
      · rw [substitute_of_eq_some hbehind, hcons, List.cons_append]
      · exact isBlank_of_mem_numeral (hcons ▸ List.mem_cons_self)

theorem substitute_ne_nil (value : Int) {text : Text} (h : text ≠ []) :
    substitute name value text ≠ [] := by
  obtain ⟨c, rest, rfl⟩ := List.exists_cons_of_ne_nil h
  cases hbehind : behindVariable? name (c :: rest) with
  | none =>
      rw [substitute_of_eq_none hbehind]
      exact List.cons_ne_nil _ _
  | some behind =>
      obtain ⟨d, digits, hcons, -⟩ := exists_numeral value
      rw [substitute_of_eq_some hbehind, hcons]
      exact List.cons_ne_nil _ _

theorem IsLastText.substitute (name : Text) (value : Int) {text : Text} (h : IsLastText text) :
    IsLastText (Script.substitute name value text) := by
  obtain ⟨gap, last, behind, rfl, hgapNonempty, hgap, hlast, hfeed, hbehind⟩ := h
  have hpercent : Text.isBlank '%' = false := by decide
  refine ⟨gap, Script.substitute name value last, behind, ?_, hgapNonempty, hgap,
    substitute_ne_nil value hlast, fun hmem => ?_, hbehind⟩
  · rw [substitute_of_not_mem_append value (not_mem_of_forall hgap hpercent),
      substitute_append_of_not_mem value last (not_mem_of_forall hbehind hpercent)]
  · rcases mem_or_of_mem_substitute hmem with hmem | hmem
    · exact hfeed hmem
    · have hblank := isBlank_of_mem_numeral hmem
      exact absurd hblank (by decide)

theorem isSome_headParts?_substitute (name : Text) (value : Int) {text : Text}
    (h : (headParts? text).isSome) : (headParts? (substitute name value text)).isSome := by
  obtain ⟨front, behind, rfl, hbehind⟩ := isSome_headParts?_iff.mp h
  rw [substitute_of_not_mem_append value front.percent_not_mem]
  exact isSome_headParts?_iff.mpr ⟨front, _, rfl, hbehind.substitute name value⟩

end Substitution

end MapAlgebra.Script
