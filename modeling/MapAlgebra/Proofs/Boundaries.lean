import MapAlgebra.Proofs.Spots
import MapAlgebra.Proofs.Visits

/-!
# Where names and tokens begin and end

A name is replaced where it is a whole token among the characters of names, numbers and paths. The
tokens that are read afterwards take in any character that is no operator, parenthesis or comma, and
the sign of an exponent. A placeholder is a whole token for the reader just where the two agree on
the characters next to it.
-/

namespace MapAlgebra.Expression

open Script (IsVariable)

section Tokens

variable {whole wanted front text token rest middle x y before after : Text}

/-- A token is what it began with and characters that each went on with it. -/
theorem exists_readToken (wanted token text : Text) :
    ∃ more, (readToken wanted token text).1 = token ++ more ∧
      ∀ number c behind, more = number ++ c :: behind →
        continuesToken wanted (token ++ number) c := by
  induction text generalizing token with
  | nil => exact ⟨[], by simp [readToken], by simp⟩
  | cons d text ih =>
      rw [readToken]
      split
      next hcontinues =>
        obtain ⟨more, hmore, hchars⟩ := ih (token ++ [d])
        refine ⟨d :: more, by simp [hmore], ?_⟩
        intro number c behind heq
        cases number with
        | nil =>
            cases heq
            simpa using hcontinues
        | cons e number =>
            cases heq
            simpa using hchars number c behind rfl
      next => exact ⟨[], by simp, by simp⟩

/-- Each character of a token goes on with what is read in front of it. -/
theorem continuesToken_of_readToken {number behind : Text} {c : Char}
    (h : readToken wanted [] text = (token, rest)) (htoken : token = number ++ c :: behind) :
    continuesToken wanted number c := by
  obtain ⟨more, hmore, hchars⟩ := exists_readToken wanted [] text
  rw [h] at hmore
  exact hchars number c behind (hmore.symm.trans htoken)

/-- Where a token ends, the text goes on with nothing that could belong to it. -/
theorem not_plain_of_readToken (hcloses : Closes wanted)
    (h : readToken wanted [] text = (token, rest)) : ∀ c ∈ rest.head?, isPlain c = false := by
  intro c hc
  have hstops := (readToken_spec wanted startsToken_nil text).2.2
  rw [h] at hstops
  refine eq_false_of_ne_true fun hplain => ?_
  have hcontinues : continuesToken wanted token c :=
    continuesToken_of_isPlain hcloses.not_plain hplain
  rw [hstops c hc] at hcontinues
  cases hcontinues

/-- Where a token is due, nothing of a part of plain characters stands in front of it that the
token has an end of. -/
theorem exists_of_due (hdue : ∀ c ∈ front.getLast?, isPlain c = false)
    (hwhole : front ++ text = x ++ (middle ++ y)) (hplain : ∀ c ∈ middle, isPlain c)
    (hbegins : front.length < x.length + middle.length) :
    ∃ before, x = front ++ before ∧ text = before ++ (middle ++ y) := by
  rcases List.append_eq_append_iff.mp hwhole with ⟨before, hx, htext⟩ | ⟨cut, hfront, hmiddle⟩
  · exact ⟨before, hx, htext⟩
  · rcases List.eq_nil_or_concat cut with rfl | ⟨init, c, rfl⟩
    · exact ⟨[], by simpa using hfront.symm, by simpa using hmiddle.symm⟩
    · rw [List.concat_eq_append] at hfront hmiddle
      rw [hfront, List.length_append] at hbegins
      have hmem : c ∈ middle := by
        rcases List.append_eq_append_iff.mp hmiddle with ⟨more, hmore, -⟩ | ⟨more, hmore, -⟩
        · have hlength := congrArg List.length hmore
          simp only [List.length_append] at hlength hbegins
          omega
        · simp [hmore]
      have hnot := hdue c (by rw [hfront, ← List.append_assoc, List.getLast?_concat]; rfl)
      cases hnot.symm.trans (hplain c hmem)

/-- A token that overlaps a part of plain characters has all of it, where tokens are due. -/
theorem exists_of_overlap (hcloses : Closes wanted)
    (hread : readToken wanted [] text = (token, rest))
    (hdue : ∀ c ∈ front.getLast?, isPlain c = false)
    (hwhole : front ++ text = x ++ (middle ++ y)) (hplain : ∀ c ∈ middle, isPlain c)
    (hbegins : front.length < x.length + middle.length)
    (hends : x.length < front.length + token.length) :
    ∃ before after, x = front ++ before ∧ token = before ++ (middle ++ after) ∧
      y = after ++ rest := by
  obtain ⟨before, rfl, htext⟩ := exists_of_due hdue hwhole hplain hbegins
  rw [List.length_append] at hends
  rcases List.append_eq_append_iff.mp ((append_of_readToken hread).symm.trans htext) with
    ⟨more, hmore, -⟩ | ⟨taken, htoken, hmiddle⟩
  · have hlength := congrArg List.length hmore
    rw [List.length_append] at hlength
    omega
  · rcases List.append_eq_append_iff.mp hmiddle with ⟨after, htaken, hy⟩ | ⟨left, htaken, hrest⟩
    · exact ⟨before, after, rfl, by rw [htoken, htaken], hy⟩
    · -- the token does not end among plain characters
      cases left with
      | nil => exact ⟨before, [], rfl, by rw [htoken, htaken]; simp, by simpa using hrest.symm⟩
      | cons c left =>
          have hnot := not_plain_of_readToken hcloses hread c (by rw [hrest]; rfl)
          cases hnot.symm.trans (hplain c (by simp [htaken]))

/-- In front of a placeholder a token has nothing, or a minus sign, if the character there belongs to
no token, unless that is the sign of an exponent. -/
theorem front_iff_of_readToken {index : Nat}
    (hread : readToken wanted [] text = (before ++ (placeholder index ++ after), rest))
    (hdue : ∀ c ∈ front.getLast?, isPlain c = false) :
    before = [] ∨ before = ['-'] ↔ (∀ c ∈ (front ++ before).getLast?, isPlain c = false) ∧
      ∀ number sign, before = number ++ [sign] → ¬ AwaitsSign number := by
  constructor
  · intro hbefore
    refine ⟨?_, ?_⟩
    · rcases hbefore with rfl | rfl
      · simpa using hdue
      · simp [isPlain, Operator.startsSign]
    · rintro number sign rfl ⟨negated, mantissa, ⟨hnumber, hletter⟩, rfl⟩
      rcases hbefore with hbefore | hbefore
      · simp at hbefore
      · have hlength := congrArg List.length hbefore
        simp at hlength
        omega
  · rintro ⟨hfront, hsign⟩
    rcases List.eq_nil_or_concat before with rfl | ⟨number, c, rfl⟩
    · exact .inl rfl
    · rw [List.concat_eq_append] at hfront hsign hread ⊢
      have hnot := hfront c (by rw [← List.append_assoc, List.getLast?_concat]; rfl)
      have hcontinues : continuesToken wanted number c :=
        continuesToken_of_readToken hread (List.append_assoc number [c] _)
      rcases of_continuesToken hcontinues with hplain | ⟨rfl, rfl⟩ | ⟨-, hawaits⟩
      · cases hnot.symm.trans hplain
      · exact .inr rfl
      · exact absurd hawaits (hsign number c rfl)

/-- Behind a placeholder a token has nothing if the character there belongs to no token. -/
theorem back_iff_of_readToken (hcloses : Closes wanted) {index : Nat}
    (hread : readToken wanted [] text = (before ++ (placeholder index ++ after), rest)) :
    after = [] ↔ ∀ c ∈ (after ++ rest).head?, isPlain c = false := by
  constructor
  · rintro rfl
    exact not_plain_of_readToken hcloses hread
  · intro hbehind
    cases after with
    | nil => rfl
    | cons c after =>
        have hnot := hbehind c rfl
        have hmark : '#' ∈ before ++ placeholder index := by simp [placeholder]
        have hcontinues : continuesToken wanted (before ++ placeholder index) c :=
          continuesToken_of_readToken hread (List.append_assoc _ _ _).symm
        rcases of_continuesToken hcontinues with hplain | ⟨-, hnil⟩ | ⟨-, hawaits⟩
        · cases hnot.symm.trans hplain
        · simp [placeholder] at hnil
        · exact absurd hawaits (not_awaitsSign_of_foreign ⟨'#', hmark, by decide⟩)

/-- A placeholder is the whole token but for a minus sign if the characters on both sides belong to
no token, unless it stands behind the sign of an exponent. -/
theorem whole_iff_of_readToken (hcloses : Closes wanted) {index : Nat}
    (hread : readToken wanted [] text = (before ++ (placeholder index ++ after), rest))
    (hdue : ∀ c ∈ front.getLast?, isPlain c = false) :
    (before = [] ∨ before = ['-']) ∧ after = [] ↔
      (∀ c ∈ (front ++ before).getLast?, isPlain c = false) ∧
      (∀ c ∈ (after ++ rest).head?, isPlain c = false) ∧
      ∀ number sign, before = number ++ [sign] → ¬ AwaitsSign number := by
  rw [front_iff_of_readToken hread hdue, back_iff_of_readToken hcloses hread]
  constructor
  · rintro ⟨⟨hfront, hsign⟩, hbehind⟩
    exact ⟨hfront, hbehind, hsign⟩
  · rintro ⟨hfront, hbehind, hsign⟩
    exact ⟨⟨hfront, hsign⟩, hbehind⟩

end Tokens

/-- A token behind some text and a part behind another have a character in common. -/
def Overlaps (front token before part : Text) : Prop :=
  front.length < before.length + part.length ∧ before.length < front.length + token.length

section Boundaries

variable {names : List Text} {prepared : Prepared} {text : Text} {pre post : List Spot}
variable {index : Nat} {spelled : Text}

/-- In front of a name and behind it the text is as it was. -/
theorem HasSpots.beside
    (h : HasSpots prepared text names (pre ++ .name index spelled :: post)) :
    (shownOf pre).getLast? = (sourceOf pre).getLast? ∧
      (shownOf post).head? = (sourceOf post).head? ∧
      ∀ c ∈ (sourceOf post).head?, c ≠ '(' := by
  obtain ⟨-, hbehind, hfront⟩ := List.isChain_append.mp h.apart
  refine ⟨?_, ?_⟩
  · rcases List.eq_nil_or_concat pre with rfl | ⟨init, last, rfl⟩
    · rfl
    · rw [List.concat_eq_append] at hfront ⊢
      have hlast := hfront last (by simp) _ rfl
      cases last with
      | char c => simp [Spot.shown, Spot.source]
      | name other text => exact hlast.elim
  · cases post with
    | nil => simp
    | cons spot post =>
        have hspot := (List.isChain_cons.mp hbehind).1 spot rfl
        cases spot with
        | char c => simpa [Spot.shown, Spot.source] using hspot.2
        | name other text => exact hspot.elim

/-- In a text that is read without a break a token takes in each placeholder. -/
theorem HasSpots.exists_reads
    (h : HasSpots prepared text names (pre ++ .name index spelled :: post))
    (hread : (seen (readChain [] prepared.text)).2.isSome) :
    ∃ front token rest, Reads prepared.text front token rest ∧
      Overlaps front token (shownOf pre) (placeholder index) := by
  obtain ⟨left, hleft⟩ := Option.isSome_iff_exists.mp hread
  have hnil : left = [] := by
    have hends := endsChain_of_readChain [] prepared.text left hleft
    cases left with
    | nil => rfl
    | cons c left => cases hends
  obtain ⟨number, hnumber⟩ : ∃ number, placeholder index = '#' :: number := ⟨_, rfl⟩
  have hshown : prepared.text = shownOf pre ++ '#' :: (number ++ shownOf post) := by
    rw [← h.shown, shownOf_append, shownOf_cons, Spot.shown, hnumber, List.cons_append]
  obtain ⟨front, token, rest, hreads, hwithin, hbehind⟩ :=
    Visits.first.covers_chain left hleft '#' (number ++ shownOf post)
      ⟨shownOf pre, hshown.symm⟩ (hnil ▸ List.nil_suffix) rfl
  refine ⟨front, token, rest, hreads, ?_⟩
  have hlength := congrArg List.length (hreads.1.symm.trans hshown)
  have hstarts := hwithin.length_le
  have hleaves := hbehind.length_le
  simp only [List.length_append, List.length_cons] at hlength hstarts hleaves
  simp only [Overlaps, hnumber, List.length_cons]
  omega

/-- The tokens of an expression are read from its text, and in a text that is read without a break
one takes in each placeholder. It is the whole token, but for a minus sign in front of it, just where
the name stands between characters that belong to no token, and not behind the sign of an
exponent. -/
theorem whole_token_iff (hnames : ∀ name ∈ names, IsVariable name) (source text : Text) :
    (∃ spots, HasSpots (Prepared.substituteAll { source, text } names) text names spots) ∧
    (∀ token ∈ (readChain [] (Prepared.substituteAll { source, text } names).text).1.tokens,
      ∃ front rest, Reads (Prepared.substituteAll { source, text } names).text front token rest) ∧
    ∀ (pre post : List Spot) (index : Nat) (spelled : Text),
      HasSpots (Prepared.substituteAll { source, text } names) text names
        (pre ++ .name index spelled :: post) →
      ((seen (readChain [] (Prepared.substituteAll { source, text } names).text)).2.isSome →
        ∃ front token rest,
          Reads (Prepared.substituteAll { source, text } names).text front token rest ∧
          Overlaps front token (shownOf pre) (placeholder index)) ∧
      ∀ front token rest,
        Reads (Prepared.substituteAll { source, text } names).text front token rest →
        Overlaps front token (shownOf pre) (placeholder index) →
        ∃ before after, shownOf pre = front ++ before ∧
          token = before ++ (placeholder index ++ after) ∧ shownOf post = after ++ rest ∧
          (after = [] → ∀ inner, rest ≠ '(' :: inner) ∧
          ((before = [] ∨ before = ['-']) ∧ after = [] ↔
            (∀ c ∈ (sourceOf pre).getLast?, isPlain c = false) ∧
            (∀ c ∈ (sourceOf post).head?, isPlain c = false) ∧
            ∀ number sign, before = number ++ [sign] → ¬ AwaitsSign number) := by
  refine ⟨exists_hasSpots hnames source text, Visits.first.reads_chain, ?_⟩
  intro pre post index spelled hspots
  refine ⟨hspots.exists_reads, ?_⟩
  intro front token rest hreads ⟨hbegins, hends⟩
  obtain ⟨hwhole, wanted, hvisits, hread⟩ := hreads
  obtain ⟨⟨other, hother, hdue⟩, hcloses⟩ := hvisits.isDue
  obtain rfl : other = front := List.append_cancel_right (hother.symm.trans hwhole)
  have hshown := hspots.shown
  rw [shownOf_append, shownOf_cons, Spot.shown] at hshown
  obtain ⟨before, after, hbefore, rfl, hafter⟩ := exists_of_overlap hcloses hread hdue
    (hwhole.symm.trans hshown.symm) (isPlain_placeholder index) hbegins hends
  obtain ⟨hlast, hhead, hopen⟩ := hspots.beside
  have hiff := whole_iff_of_readToken hcloses hread hdue
  rw [← hbefore, ← hafter, hlast, hhead] at hiff
  refine ⟨before, after, hbefore, rfl, hafter, ?_, hiff⟩
  rintro rfl inner rfl
  exact hopen '(' (by rw [← hhead, hafter]; rfl) rfl

/-- The text with a placeholder for its one name. -/
def prepareName (text : Text) : Prepared :=
  Prepared.substituteAll { source := text, text } ["A".toList]

theorem isVariable_names : ∀ name ∈ ["A".toList], IsVariable name := by decide

/-- A name between characters of a text. -/
theorem hasSpots_prepareName (front back : Text)
    (hshown : (prepareName (front ++ 'A' :: back)).text = front ++ (placeholder 0 ++ back))
    (hapart : (front.map Spot.char ++ Spot.name 0 "A".toList :: back.map Spot.char).IsChain
      Spot.Apart) :
    HasSpots (prepareName (front ++ 'A' :: back)) (front ++ 'A' :: back) ["A".toList]
      (front.map Spot.char ++ Spot.name 0 "A".toList :: back.map Spot.char) where
  source := by simp [Spot.source]
  shown := by simp [Spot.shown, hshown]
  apart := hapart
  spelled := by
    intro index spelled hspot
    obtain ⟨rfl, rfl⟩ : index = 0 ∧ spelled = "A".toList := by simpa using hspot
    exact ⟨"A".toList, rfl, by decide⟩

/-- The placeholder of a name behind a minus sign is the whole token behind the sign. -/
theorem whole_token_signed :
    HasSpots (prepareName "-A*B.idf".toList) "-A*B.idf".toList ["A".toList]
      ([.char '-'] ++ .name 0 "A".toList :: "*B.idf".toList.map .char) ∧
    Reads (prepareName "-A*B.idf".toList).text [] "-#0#".toList "*B.idf".toList ∧
    ∃ before after, "-#0#".toList = before ++ (placeholder 0 ++ after) ∧
      (before = [] ∨ before = ['-']) ∧ after = [] := by
  have htext : (prepareName "-A*B.idf".toList).text = "-#0#*B.idf".toList := by decide +kernel
  have hspots : HasSpots (prepareName "-A*B.idf".toList) "-A*B.idf".toList ["A".toList]
      ([.char '-'] ++ .name 0 "A".toList :: "*B.idf".toList.map .char) :=
    hasSpots_prepareName ['-'] "*B.idf".toList htext (by decide)
  have hreads : Reads (prepareName "-A*B.idf".toList).text [] "-#0#".toList "*B.idf".toList := by
    rw [htext]
    exact ⟨rfl, [], .first, by decide⟩
  obtain ⟨before, after, hbefore, htoken, -, -, hiff⟩ :=
    ((whole_token_iff isVariable_names "-A*B.idf".toList "-A*B.idf".toList).2.2 [.char '-']
      ("*B.idf".toList.map .char) 0 "A".toList hspots).2 [] "-#0#".toList "*B.idf".toList hreads
      ⟨by decide, by decide⟩
  refine ⟨hspots, hreads, before, after, htoken, hiff.mpr ⟨?_, ?_, ?_⟩⟩
  · rintro c ⟨⟩
    rfl
  · rintro c ⟨⟩
    rfl
  · rintro number sign rfl hawaits
    obtain rfl : number = [] := by
      have hlength := congrArg List.length hbefore
      simpa [Spot.shown] using hlength
    exact absurd (awaitsExponent_iff.mpr hawaits) (by decide)

/-- In the name of a file the placeholder of a name is part of a longer token. -/
theorem placeholder_in_file_name :
    HasSpots (prepareName "A$B.idf".toList) "A$B.idf".toList ["A".toList]
      ([] ++ .name 0 "A".toList :: "$B.idf".toList.map .char) ∧
    Reads (prepareName "A$B.idf".toList).text [] "#0#$B.idf".toList [] ∧
    ∀ negated, "#0#$B.idf".toList ≠ minus negated ++ placeholder 0 := by
  have htext : (prepareName "A$B.idf".toList).text = "#0#$B.idf".toList := by decide +kernel
  refine ⟨hasSpots_prepareName [] "$B.idf".toList htext (by decide), ?_, by decide⟩
  rw [htext]
  exact ⟨rfl, [], .first, by decide⟩

end Boundaries

end MapAlgebra.Expression
