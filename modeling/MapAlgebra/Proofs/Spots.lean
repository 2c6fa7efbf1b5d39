import Mathlib.Data.List.Chain
import MapAlgebra.Proofs.Words

/-!
# Spots of names in a text

Putting placeholders for names into a text leaves its characters where they are and changes spots
that spell a name in some case. A spot is a whole token: the characters next to it in the text are
no characters of tokens. This holds of texts in any script, since a letter that is taken for one of
a name is a letter.
-/

namespace MapAlgebra

namespace Text

/-- Few letters beyond ASCII have one in ASCII, or another form of one, for their lower case. -/
theorem lowerChar_spec {c : Char} (h : ¬ c.toNat < 128)
    (hlow : (lowerChar c).toNat < 128 ∨ (lowerChar c).toNat = 305 ∨ (lowerChar c).toNat = 383) :
    c.toNat ∈ [304, 305, 383, 8490] := by
  have hruns : lowerRuns.all (fun run => (List.range (run.last - run.first + 1)).all fun k =>
      let low := (Char.ofNat (Int.toNat ((run.first + k : Nat) + run.shift))).toNat
      !run.covers (run.first + k) || (128 ≤ low && low != 305 && low != 383) ||
        [304, 305, 383, 8490].contains (run.first + k)) = true := by
    decide +kernel
  rcases lowerChar_eq_self_or h with hself | ⟨run, hrun, hcovers, hshifted⟩
  · rw [hself] at hlow
    rcases hlow with hlow | hlow | hlow
    · exact absurd hlow h
    · simp [hlow]
    · simp [hlow]
  · have hbounds : run.first ≤ c.toNat ∧ c.toNat ≤ run.last := by
      simp only [CaseRun.covers, Bool.and_eq_true, decide_eq_true_eq] at hcovers
      exact hcovers.1
    have hnumber : run.first + (c.toNat - run.first) = c.toNat := by omega
    have hcode := List.all_eq_true.mp (List.all_eq_true.mp hruns run hrun) (c.toNat - run.first)
      (List.mem_range.mpr (by omega))
    rw [hnumber] at hcode
    simp only [hcovers, ← hshifted, Bool.not_true, Bool.false_or, Bool.or_eq_true,
      Bool.and_eq_true, decide_eq_true_eq, bne_iff_ne, List.contains_iff_mem] at hcode
    rcases hcode with ⟨⟨hascii, hfirst⟩, hsecond⟩ | hcode
    · omega
    · exact hcode

/-- What is taken for a letter or digit of a name is a letter or digit. -/
theorem isWord_of_sameLetter {wanted c : Char} (hascii : wanted.toNat < 128)
    (hword : isWord wanted) (h : sameLetter wanted c) : isWord c := by
  by_cases hc : c.toNat < 128
  · rw [← isWord_toUpper hc, ← (sameLetter_iff hascii hc).mp h, isWord_toUpper hascii, hword]
  · have hlower : wanted.toLower.toNat < 128 :=
      forall_ascii (p := fun c => c.toLower.toNat < 128) (by decide +kernel) hascii
    have hkin : ∀ entry ∈ caseKin, entry.1 < 128 → ∀ kin ∈ entry.2, kin = 305 ∨ kin = 383 := by
      decide
    have hother : ∀ n ∈ [304, 305, 383, 8490], isWord (Char.ofNat n) := by decide +kernel
    have hlow : (lowerChar c).toNat < 128 ∨ (lowerChar c).toNat = 305 ∨
        (lowerChar c).toNat = 383 := by
      unfold sameLetter at h
      split at h
      next =>
        have hwanted : lowerChar wanted = wanted.toLower := if_pos hascii
        dsimp only at h
        rw [hwanted, Bool.or_eq_true] at h
        rcases h with h | h
        · exact .inl (eq_of_beq h ▸ hlower)
        · split at h
          next entry hfound =>
            have hfirst : entry.1 = wanted.toLower.toNat := by simpa using List.find?_some hfound
            exact .inr (hkin entry (List.mem_of_find?_eq_some hfound) (hfirst ▸ hlower) _
              (List.contains_iff_mem.mp h))
          next => cases h
      next =>
        cases eq_of_beq h
        exact absurd hascii hc
    exact Char.ofNat_toNat c ▸ hother c.toNat (lowerChar_spec hc hlow)

end Text

namespace Expression

open Script (IsVariable)

/-- A part of a text in which placeholders have been put for names. -/
inductive Spot
  | char (c : Char)
  | name (index : Nat) (spelled : Text)
  deriving DecidableEq, Repr

namespace Spot

/-- The part as it was. -/
def source : Spot → Text
  | char c => [c]
  | name _ spelled => spelled

/-- The part with the placeholder in place of the name. -/
def shown : Spot → Text
  | char c => [c]
  | name index _ => placeholder index

/-- Spots that may follow each other: next to a name there is neither a character of tokens nor
another name, and behind it no parenthesis opens. -/
def Apart : Spot → Spot → Prop
  | char _, char _ => True
  | char c, name _ _ => isTokenChar c = false
  | name _ _, char c => isTokenChar c = false ∧ c ≠ '('
  | name _ _, name _ _ => False

instance (first second : Spot) : Decidable (first.Apart second) :=
  match first, second with
  | char _, char _ => isTrue trivial
  | char c, name _ _ => inferInstanceAs (Decidable (isTokenChar c = false))
  | name _ _, char c => inferInstanceAs (Decidable (isTokenChar c = false ∧ c ≠ '('))
  | name _ _, name _ _ => isFalse id

end Spot

/-- The text as it was. -/
def sourceOf (spots : List Spot) : Text :=
  spots.flatMap Spot.source

/-- The text with placeholders. -/
def shownOf (spots : List Spot) : Text :=
  spots.flatMap Spot.shown

section Spots

variable {name : Text} {spots : List Spot} {before : Option Char}

@[simp] theorem sourceOf_nil : sourceOf [] = [] :=
  rfl

@[simp] theorem shownOf_nil : shownOf [] = [] :=
  rfl

@[simp] theorem sourceOf_cons (spot : Spot) (spots : List Spot) :
    sourceOf (spot :: spots) = spot.source ++ sourceOf spots :=
  List.flatMap_cons

@[simp] theorem shownOf_cons (spot : Spot) (spots : List Spot) :
    shownOf (spot :: spots) = spot.shown ++ shownOf spots :=
  List.flatMap_cons

@[simp] theorem sourceOf_append (front back : List Spot) :
    sourceOf (front ++ back) = sourceOf front ++ sourceOf back :=
  List.flatMap_append

@[simp] theorem shownOf_append (front back : List Spot) :
    shownOf (front ++ back) = shownOf front ++ shownOf back :=
  List.flatMap_append

@[simp] theorem sourceOf_chars (text : Text) : sourceOf (text.map .char) = text := by
  simp [sourceOf, List.flatMap_map, Spot.source]

@[simp] theorem shownOf_chars (text : Text) : shownOf (text.map .char) = text := by
  simp [shownOf, List.flatMap_map, Spot.shown]

theorem isTokenChar_of_sameLetter (hname : IsVariable name) {wanted c : Char}
    (hwanted : wanted ∈ name) (h : Text.sameLetter wanted c) : isTokenChar c ∧ c ≠ '#' := by
  obtain ⟨hascii, hword⟩ := hname.word wanted hwanted
  have hc := Text.isWord_of_sameLetter hascii hword h
  refine ⟨by simp [isTokenChar, hc], ?_⟩
  rintro rfl
  revert hc
  decide

/-- A name that is not found in placeholders, nor in parts of them: it is spelled without their
mark. -/
structure IsUnmarked (name : Text) : Prop where
  nonempty : name ≠ []
  letters : ∀ wanted ∈ name, Text.sameLetter wanted '#' = false

theorem isUnmarked_of_isVariable (hname : IsVariable name) : IsUnmarked name where
  nonempty := hname.nonempty
  letters _ hwanted := eq_false_of_ne_true fun hsame =>
    (isTokenChar_of_sameLetter hname hwanted hsame).2 rfl

/-- A name is found among characters, not in placeholders. -/
theorem exists_chars_of_dropCaseless? {part rest : Text}
    (hpart : ∀ wanted ∈ part, Text.sameLetter wanted '#' = false)
    (h : Text.dropCaseless? part (shownOf spots) = some rest) :
    ∃ spelled back, spots = spelled.map .char ++ back ∧ shownOf back = rest ∧
      spelled.length = part.length ∧ Text.dropCaseless? part spelled = some [] ∧
      ∀ c ∈ spelled, ∃ wanted ∈ part, Text.sameLetter wanted c := by
  induction part generalizing spots with
  | nil => exact ⟨[], spots, rfl, Option.some.inj h, rfl, rfl, by simp⟩
  | cons wanted part ih =>
      cases spots with
      | nil => cases h
      | cons spot spots =>
          cases spot with
          | char c =>
              rw [shownOf_cons, Spot.shown, List.singleton_append, Text.dropCaseless?] at h
              split at h
              next hletter =>
                obtain ⟨spelled, back, rfl, hback, hlength, hspelled, hchars⟩ :=
                  ih (fun w hw => hpart w (List.mem_cons_of_mem _ hw)) h
                refine ⟨c :: spelled, back, rfl, hback, by simp [hlength], ?_, fun d hd => ?_⟩
                · rw [Text.dropCaseless?, if_pos hletter, hspelled]
                · rcases List.mem_cons.mp hd with rfl | hd
                  · exact ⟨wanted, List.mem_cons_self, hletter⟩
                  · obtain ⟨other, hother, hsame⟩ := hchars d hd
                    exact ⟨other, List.mem_cons_of_mem _ hother, hsame⟩
              next => cases h
          | name index spelled =>
              rw [shownOf_cons, Spot.shown, placeholder, List.cons_append, List.cons_append,
                Text.dropCaseless?, hpart wanted List.mem_cons_self] at h
              cases h

theorem getLast?_append_placeholder (text : Text) (index : Nat) :
    (text ++ placeholder index).getLast? = some '#' := by
  rw [placeholder, ← List.append_assoc, List.getLast?_concat]

/-- In a placeholder no name is found. -/
theorem exists_cut_placeholder (hname : IsUnmarked name) (index : Nat) (rest : Text) :
    ∃ last : Option Char, last.any isTokenChar ∧
      cut name before (placeholder index ++ rest) =
        (placeholder index).map .char ++ cut name last rest := by
  have hnone : behindName? name before (placeholder index ++ rest) = none := by
    obtain ⟨wanted, part, rfl⟩ := List.exists_cons_of_ne_nil hname.nonempty
    have hletter : Text.sameLetter wanted '#' = false := hname.letters _ List.mem_cons_self
    unfold behindName?
    split
    next => rfl
    next =>
      rw [placeholder, List.cons_append, List.cons_append, Text.dropCaseless?, hletter]
      rfl
  have hrest : ∀ c ∈ Nat.toDigits 10 index ++ ['#'], isTokenChar c :=
    fun c hc => (isWhole_placeholder index).chars c (List.mem_cons_of_mem _ hc)
  obtain ⟨last, hlast, hcut⟩ : ∃ last : Option Char, last.any isTokenChar ∧
      cut name (some '#') (Nat.toDigits 10 index ++ ['#'] ++ rest) = _ :=
    cut_append rfl hrest rest
  refine ⟨last, hlast, ?_⟩
  rw [placeholder, List.cons_append, List.cons_append] at hnone ⊢
  rw [cut_of_behindName?_eq_none hnone, hcut]
  rfl

/-- A name that is found is no part of a longer token, and no parenthesis opens behind it. -/
theorem spec_of_behindName? {text rest : Text} (h : behindName? name before text = some rest) :
    before.any isTokenChar = false ∧ Text.dropCaseless? name text = some rest ∧
      (rest.head?.any fun c => isTokenChar c || c == '(') = false := by
  unfold behindName? at h
  split at h
  next => cases h
  next hbefore =>
    split at h
    next => cases h
    next found hfound =>
      split at h
      next => cases h
      next hhead =>
        cases h
        exact ⟨eq_false_of_ne_true hbefore, hfound, eq_false_of_ne_true hhead⟩

/-- A name that is found is spelled by characters, and the rest is looked through behind it. -/
theorem exists_cut_found (hname : IsUnmarked name) {rest : Text}
    (h : behindName? name before (shownOf spots) = some rest) :
    ∃ spelled back, spots = spelled.map .char ++ back ∧ spelled ≠ [] ∧
      Text.dropCaseless? name spelled = some [] ∧
      (∀ c ∈ spelled, ∃ wanted ∈ name, Text.sameLetter wanted c) ∧
      cut name before (shownOf spots) = .name spelled :: cut name spelled.getLast? (shownOf back) ∧
      before.any isTokenChar = false ∧
      ((shownOf back).head?.any fun c => isTokenChar c || c == '(') = false := by
  obtain ⟨hapart, hdrop, hhead⟩ := spec_of_behindName? h
  obtain ⟨spelled, back, rfl, rfl, hsize, hspelled, hchars⟩ :=
    exists_chars_of_dropCaseless? hname.letters hdrop
  have hpos := List.length_pos_of_ne_nil hname.nonempty
  rw [shownOf_append, shownOf_chars] at h ⊢
  obtain ⟨c, tail, rfl⟩ := List.exists_cons_of_length_pos (hsize ▸ hpos)
  rw [List.cons_append] at h ⊢
  refine ⟨c :: tail, back, rfl, List.cons_ne_nil c tail, hspelled, hchars,
    (cut_of_behindName?_eq_some hname.nonempty h).trans ?_, hapart, hhead⟩
  rw [← hsize, ← List.cons_append, List.take_left, List.getElem?_append_left (by simp),
    List.getLast?_eq_getElem?]

theorem apart_of_getLast? {spot : Spot} (hspot : spot ∈ spots.getLast?)
    (h : (shownOf spots).getLast?.any isTokenChar = false) (index : Nat) (spelled : Text) :
    spot.Apart (.name index spelled) := by
  obtain ⟨front, rfl⟩ := List.getLast?_eq_some_iff.mp hspot
  cases spot with
  | char c => simpa [Spot.shown, Spot.Apart] using h
  | name other text =>
      rw [shownOf_append, shownOf_cons, Spot.shown, shownOf_nil, List.append_nil,
        getLast?_append_placeholder] at h
      cases h

theorem apart_of_head? {spot : Spot} (hspot : spot ∈ spots.head?)
    (h : ((shownOf spots).head?.any fun c => isTokenChar c || c == '(') = false) (index : Nat)
    (spelled : Text) : Spot.Apart (.name index spelled) spot := by
  obtain ⟨back, rfl⟩ := List.head?_eq_some_iff.mp hspot
  cases spot with
  | char c => simpa [Spot.shown, Spot.Apart] using h
  | name other text => cases h

/-- Spots stay apart when characters give way to a name between characters of no token. -/
theorem isChain_found {front back : List Spot} {spelled : Text}
    (h : (front ++ (spelled.map Spot.char ++ back)).IsChain Spot.Apart)
    (hfront : (shownOf front).getLast?.any isTokenChar = false)
    (hback : ((shownOf back).head?.any fun c => isTokenChar c || c == '(') = false) (index : Nat) :
    (front ++ [Spot.name index spelled] ++ back).IsChain Spot.Apart := by
  rw [List.append_assoc]
  refine h.left_of_append.append (.append (.singleton _) h.right_of_append.right_of_append ?_) ?_
  · intro spot hspot other hother
    cases hspot
    exact apart_of_head? hother hback index spelled
  · intro spot hspot other hother
    cases hother
    exact apart_of_getLast? hspot hfront index spelled

/-- Spots in which a name has been looked for. A spot in which it is not found is kept, and
characters that spell it give way to one spot. -/
inductive Recut (name : Text) (index : Nat) : Option Char → List Spot → List Spot → Prop
  | nil {before : Option Char} (hcut : cut name before [] = []) : Recut name index before [] []
  | kept {before last : Option Char} {spot : Spot} {spots after : List Spot}
      (hcut : cut name before (shownOf (spot :: spots)) =
        spot.shown.map .char ++ cut name last (shownOf spots))
      (hlast : last.any isTokenChar = spot.shown.getLast?.any isTokenChar)
      (h : Recut name index last spots after) :
      Recut name index before (spot :: spots) (spot :: after)
  | found {before : Option Char} {spelled : Text} {back after : List Spot} (hne : spelled ≠ [])
      (hspelled : Text.dropCaseless? name spelled = some [])
      (hchars : ∀ c ∈ spelled, ∃ wanted ∈ name, Text.sameLetter wanted c)
      (hcut : cut name before (shownOf (spelled.map .char ++ back)) =
        .name spelled :: cut name spelled.getLast? (shownOf back))
      (hapart : before.any isTokenChar = false)
      (hhead : ((shownOf back).head?.any fun c => isTokenChar c || c == '(') = false)
      (h : Recut name index spelled.getLast? back after) :
      Recut name index before (spelled.map .char ++ back) (.name index spelled :: after)

namespace Recut

variable {index : Nat} {after : List Spot}

/-- The text that the spots stand in is the same. -/
theorem source (h : Recut name index before spots after) : sourceOf after = sourceOf spots := by
  induction h with
  | nil => rfl
  | kept _ _ _ ih => rw [sourceOf_cons, sourceOf_cons, ih]
  | found _ _ _ _ _ _ _ ih => simp [ih, Spot.source]

/-- Where the name is found there is a placeholder for it. -/
theorem shown (h : Recut name index before spots after) : shownOf after =
    (cut name before (shownOf spots)).flatMap (Piece.replaced (placeholder index)) := by
  induction h with
  | nil hcut =>
      rw [shownOf_nil, hcut]
      rfl
  | kept hcut _ _ ih =>
      rw [hcut, shownOf_cons, ih]
      simp [List.flatMap_map, Piece.replaced]
  | found _ _ _ hcut _ _ _ ih =>
      rw [hcut, shownOf_cons, ih]
      rfl

theorem mem (h : Recut name index before spots after) : ∀ spot ∈ after, spot ∈ spots ∨
    ∃ spelled, spot = .name index spelled ∧ Text.dropCaseless? name spelled = some [] ∧
      .name spelled ∈ cut name before (shownOf spots) := by
  induction h with
  | nil => nofun
  | kept hcut _ _ ih =>
      intro other hother
      rcases List.mem_cons.mp hother with rfl | hother
      · exact .inl List.mem_cons_self
      · rw [hcut]
        rcases ih other hother with hold | ⟨spelled, rfl, hspelled, hmem⟩
        · exact .inl (List.mem_cons_of_mem _ hold)
        · exact .inr ⟨spelled, rfl, hspelled, List.mem_append_right _ hmem⟩
  | @found before spelled _ _ _ hspelled _ hcut _ _ _ ih =>
      intro other hother
      rw [hcut]
      rcases List.mem_cons.mp hother with rfl | hother
      · exact .inr ⟨spelled, rfl, hspelled, List.mem_cons_self⟩
      · rcases ih other hother with hold | ⟨other, rfl, hspelled, hmem⟩
        · exact .inl (List.mem_append_right _ hold)
        · exact .inr ⟨other, rfl, hspelled, List.mem_cons_of_mem _ hmem⟩

/-- Spots stay apart when a whole token gives way to a name. -/
theorem isChain (hname : IsVariable name) (h : Recut name index before spots after)
    {front : List Spot} (hchain : (front ++ spots).IsChain Spot.Apart)
    (hbefore : before.any isTokenChar = (shownOf front).getLast?.any isTokenChar) :
    (front ++ after).IsChain Spot.Apart := by
  induction h generalizing front with
  | nil => exact hchain
  | @kept before last spot spots after _ hlast _ ih =>
      have hrest : (front ++ [spot] ++ spots).IsChain Spot.Apart := by simpa using hchain
      have hne : spot.shown ≠ [] := by cases spot <;> exact List.cons_ne_nil _ _
      have hbehind : last.any isTokenChar =
          (shownOf (front ++ [spot])).getLast?.any isTokenChar := by
        rw [hlast, shownOf_append, shownOf_cons, shownOf_nil, List.append_nil,
          List.getLast?_append_of_ne_nil _ hne]
      simpa using ih hrest hbehind
  | @found before spelled back after hne _ hchars _ hapart hhead _ ih =>
      have hrest := isChain_found hchain (hbefore.symm.trans hapart) hhead index
      have hbehind : spelled.getLast?.any isTokenChar =
          (shownOf (front ++ [.name index spelled])).getLast?.any isTokenChar := by
        obtain ⟨wanted, hwanted, hsame⟩ := hchars _ (List.getLast_mem hne)
        rw [shownOf_append, shownOf_cons, Spot.shown, shownOf_nil, List.append_nil,
          getLast?_append_placeholder, List.getLast?_eq_some_getLast hne]
        exact (isTokenChar_of_sameLetter hname hwanted hsame).1
      simpa using ih hrest hbehind

end Recut

/-- Where a name is looked for, it is found in further spots. -/
theorem exists_recut (hname : IsUnmarked name) (index : Nat) (before : Option Char)
    (spots : List Spot) : ∃ after, Recut name index before spots after := by
  induction hlength : spots.length using Nat.strong_induction_on generalizing spots before with
  | _ length ih =>
    cases spots with
    | nil => exact ⟨[], .nil (cut_nil hname.nonempty)⟩
    | cons spot spots =>
        cases spot with
        | name other spelled =>
            obtain ⟨last, hlast, hcut⟩ : ∃ last : Option Char, last.any isTokenChar ∧
                cut name before (placeholder other ++ shownOf spots) = _ :=
              exists_cut_placeholder hname other (shownOf spots)
            obtain ⟨after, hafter⟩ := ih spots.length (by simp [← hlength]) last spots rfl
            have hmark : (placeholder other).getLast? = some '#' :=
              getLast?_append_placeholder [] other
            exact ⟨_, .kept hcut (hlast.trans (by rw [Spot.shown, hmark]; rfl)) hafter⟩
        | char c =>
            cases hfound : behindName? name before (c :: shownOf spots) with
            | none =>
                obtain ⟨after, hafter⟩ :=
                  ih spots.length (by simp [← hlength]) (some c) spots rfl
                exact ⟨_, .kept (cut_of_behindName?_eq_none hfound) rfl hafter⟩
            | some rest =>
                have hshows : shownOf (.char c :: spots) = c :: shownOf spots := rfl
                rw [← hshows] at hfound
                obtain ⟨spelled, back, hspots, hne, hspelled, hchars, hcut, hapart, hhead⟩ :=
                  exists_cut_found hname hfound
                have hcount : spots.length + 1 = spelled.length + back.length := by
                  simpa using congrArg List.length hspots
                have hpos := List.length_pos_of_ne_nil hne
                rw [hspots] at hcut ⊢
                obtain ⟨after, hafter⟩ := ih back.length
                  (by simp only [List.length_cons] at hlength; omega) spelled.getLast? back rfl
                exact ⟨_, .found hne hspelled hchars hcut hapart hhead hafter⟩

/-- An expression is a text with placeholders in spots of it. The name that a placeholder is
numbered by is spelled there, and what stands next to it is no part of a token. -/
structure HasSpots (prepared : Prepared) (text : Text) (names : List Text) (spots : List Spot) :
    Prop where
  source : sourceOf spots = text
  shown : shownOf spots = prepared.text
  apart : spots.IsChain Spot.Apart
  spelled : ∀ index spelled, .name index spelled ∈ spots →
    ∃ name, names[index]? = some name ∧ Text.dropCaseless? name spelled = some []

theorem HasSpots.exists_substitute {prepared : Prepared} {text : Text} {names : List Text}
    (h : HasSpots prepared text names spots) (hname : IsVariable name) {index : Nat}
    (hindex : names[index]? = some name) :
    ∃ after, HasSpots (prepared.substitute (placeholder index) name) text names after := by
  obtain ⟨after, hafter⟩ := exists_recut (isUnmarked_of_isVariable hname) index none spots
  have hchain : ([] ++ after).IsChain Spot.Apart := hafter.isChain hname h.apart rfl
  unfold Prepared.substitute
  dsimp only
  split
  next =>
    refine ⟨after, hafter.source.trans h.source, h.shown ▸ hafter.shown, hchain, ?_⟩
    intro other spelled hspot
    rcases hafter.mem _ hspot with hspot | ⟨found, heq, hfound, -⟩
    · exact h.spelled other spelled hspot
    · cases heq
      exact ⟨name, hindex, hfound⟩
  next => exact ⟨spots, h⟩

/-- Placeholders for all names are put in spots of the text. -/
theorem exists_hasSpots {names : List Text} (hnames : ∀ name ∈ names, IsVariable name)
    (source text : Text) :
    ∃ spots, HasSpots (Prepared.substituteAll { source, text } names) text names spots := by
  have hfold (entries : List (Text × Nat)) : ∀ prepared : Prepared,
      (∀ entry ∈ entries, names[entry.2]? = some entry.1) →
      (∃ spots, HasSpots prepared text names spots) →
        ∃ spots, HasSpots (entries.foldl (fun prepared entry =>
          prepared.substitute (placeholder entry.2) entry.1) prepared) text names spots := by
    induction entries with
    | nil => exact fun _ _ hspots => hspots
    | cons entry entries ih =>
        intro prepared hentries ⟨spots, hspots⟩
        have hentry := hentries entry List.mem_cons_self
        refine ih _ (fun other hother => hentries other (List.mem_cons_of_mem _ hother)) ?_
        exact hspots.exists_substitute (hnames _ (List.mem_of_getElem? hentry)) hentry
  refine hfold names.zipIdx { source, text } ?_ ⟨text.map .char, by simp, by simp, ?_, by simp⟩
  · intro entry hentry
    exact List.mem_zipIdx_iff_getElem?.mp hentry
  · rw [List.isChain_map, List.isChain_iff_forall_rel_of_append_cons_cons]
    intros
    trivial

end Spots

end Expression

end MapAlgebra
