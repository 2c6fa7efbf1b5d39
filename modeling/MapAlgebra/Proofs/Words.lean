import Mathlib.Data.List.Induction
import MapAlgebra.Proofs.Likeness
import MapAlgebra.Proofs.LoopHeads
import MapAlgebra.Proofs.Substitution

/-!
# Names as whole tokens

A text is a row of whole tokens with other characters between them. A name is found only where it is
one of the tokens, so that preparing an expression puts a placeholder for every token that spells a
name and leaves the other tokens as they are.
-/

namespace MapAlgebra

namespace Text

/-- The upper case of ASCII text is letter by letter. -/
theorem upper_of_ascii {text : Text} (h : ∀ c ∈ text, c.toNat < 128) :
    upper text = upperAscii text := by
  have hchar : ∀ c ∈ text, upperChar c = [c.toUpper] := fun c hc => by
    unfold upperChar
    rw [if_pos (h c hc)]
  unfold upper upperAscii
  rw [List.map_eq_flatMap, List.flatMap_def, List.flatMap_def, List.map_congr_left hchar]

/-- Every letter has an upper case. -/
theorem eq_nil_of_upper_eq_nil {text : Text} (h : upper text = []) : text = [] := by
  have hexpansions : ∀ entry ∈ upperExpansions, entry.2 ≠ [] := by decide
  cases text with
  | nil => rfl
  | cons c text =>
      refine absurd (List.append_eq_nil_iff.mp h).1 fun hchar => ?_
      unfold upperChar at hchar
      split at hchar
      next => cases hchar
      next =>
        split at hchar
        next entry hfound =>
          exact hexpansions entry (List.mem_of_find?_eq_some hfound) (List.map_eq_nil_iff.mp hchar)
        next => cases hchar

theorem isWord_toUpper {c : Char} (h : c.toNat < 128) : isWord c.toUpper = isWord c :=
  forall_ascii (p := fun c => isWord c.toUpper = isWord c) (by decide +kernel) h

/-- ASCII letters are the same up to their case when their upper case letters are. -/
theorem sameLetter_iff {wanted c : Char} (hwanted : wanted.toNat < 128) (hc : c.toNat < 128) :
    sameLetter wanted c ↔ wanted.toUpper = c.toUpper := by
  have hall : ∀ n < 128, (Char.ofNat n).toLower.toNat < 128 ∧
      (Char.ofNat n).toUpper.toLower = (Char.ofNat n).toLower ∧
      (Char.ofNat n).toLower.toUpper = (Char.ofNat n).toUpper ∧
      ((Char.ofNat n).toLower = (Char.ofNat n).toUpper → (Char.ofNat n).toUpper = Char.ofNat n) ∧
      (isCased (Char.ofNat n) = false →
        (Char.ofNat n).toLower = Char.ofNat n ∧ (Char.ofNat n).toUpper = Char.ofNat n) := by
    decide +kernel
  have hspec {d : Char} (hd : d.toNat < 128) := Char.ofNat_toNat d ▸ hall d.toNat hd
  have hkin : ∀ entry ∈ caseKin, entry.1 < 128 → ∀ kin ∈ entry.2, 128 ≤ kin := by decide
  obtain ⟨hascii, hup, hlow, hsame, huncased⟩ := hspec hwanted
  obtain ⟨hascii', hup', hlow', hsame', -⟩ := hspec hc
  unfold sameLetter lowerChar
  rw [if_pos hwanted, if_pos hc]
  dsimp only
  split
  next =>
    have hsame : wanted.toLower = c.toLower ↔ wanted.toUpper = c.toUpper :=
      ⟨fun h => by rw [← hlow, h, hlow'], fun h => by rw [← hup, h, hup']⟩
    split
    next entry hfound =>
      have hfirst : entry.1 = wanted.toLower.toNat := by simpa using List.find?_some hfound
      have hle := hkin entry (List.mem_of_find?_eq_some hfound) (hfirst ▸ hascii)
      have hnone : entry.2.contains c.toLower.toNat = false := by
        rw [List.contains_eq_mem, decide_eq_false_iff_not]
        exact fun hmem => absurd (hle _ hmem) (Nat.not_le.mpr hascii')
      rw [hnone, Bool.or_false, beq_iff_eq, hsame]
    next => rw [Bool.or_false, beq_iff_eq, hsame]
  next hcased =>
    obtain ⟨hlower, hupper⟩ := huncased (eq_false_of_ne_true hcased)
    rw [beq_iff_eq]
    refine ⟨fun h => by rw [h], fun h => ?_⟩
    have hlower' : wanted = c.toLower := by rw [← hlower, ← hup, h, hup']
    rw [← hsame' (by rw [← hlower', ← h, hupper]), ← h, hupper]

/-- An ASCII text begins with a name when its first letters are those of the name up to case. -/
theorem dropCaseless?_eq_some_iff {name text rest : Text} (hname : ∀ c ∈ name, c.toNat < 128)
    (htext : ∀ c ∈ text, c.toNat < 128) : dropCaseless? name text = some rest ↔
      ∃ front, text = front ++ rest ∧ upperAscii front = upperAscii name := by
  induction name generalizing text with
  | nil =>
      constructor
      · intro h
        exact ⟨[], Option.some.inj h, rfl⟩
      · rintro ⟨front, rfl, hfront⟩
        rw [List.map_eq_nil_iff.mp hfront]
        rfl
  | cons wanted name ih =>
      cases text with
      | nil =>
          refine ⟨nofun, ?_⟩
          rintro ⟨front, hnil, hfront⟩
          rw [(List.append_eq_nil_iff.mp hnil.symm).1] at hfront
          cases hfront
      | cons c text =>
          have hletter : sameLetter wanted c ↔ wanted.toUpper = c.toUpper :=
            sameLetter_iff (hname _ List.mem_cons_self) (htext _ List.mem_cons_self)
          have ih := ih (fun d hd => hname d (List.mem_cons_of_mem _ hd))
            (fun d hd => htext d (List.mem_cons_of_mem _ hd))
          rw [dropCaseless?]
          constructor
          · intro h
            split at h
            next hsame =>
              obtain ⟨front, rfl, hfront⟩ := ih.mp h
              refine ⟨c :: front, rfl, ?_⟩
              exact List.cons_eq_cons.mpr ⟨(hletter.mp hsame).symm, hfront⟩
            next => cases h
          · rintro ⟨front, htext, hfront⟩
            cases front with
            | nil => cases hfront
            | cons d front =>
                obtain ⟨rfl, rfl⟩ := List.cons.inj htext
                obtain ⟨hsame, hfront⟩ := List.cons.inj hfront
                rw [if_pos (hletter.mpr hsame.symm)]
                exact ih.mpr ⟨front, rfl, hfront⟩

end Text

namespace Expression

open Script (IsVariable)
open VariableTable (key)

/-- The whole tokens of a text: the longest runs of characters of tokens. -/
def wholeTokens (text : Text) : List Text :=
  (text.splitOnP fun c => !isTokenChar c).filter (· ≠ [])

theorem mem_of_mem_wholeTokens {text token : Text} (htoken : token ∈ wholeTokens text) :
    ∀ c ∈ token, c ∈ text := by
  have hsplit := (List.mem_filter.mp htoken).1
  clear htoken
  induction text generalizing token with
  | nil =>
      obtain rfl : token = [] := by simpa using hsplit
      exact List.forall_mem_nil _
  | cons c text ih =>
      rw [List.splitOnP_cons_eq_if_modifyHead] at hsplit
      split at hsplit
      next =>
        rcases List.mem_cons.mp hsplit with rfl | hsplit
        · exact List.forall_mem_nil _
        · exact fun d hd => List.mem_cons_of_mem _ (ih hsplit d hd)
      next =>
        cases hrest : text.splitOnP fun c => !isTokenChar c with
        | nil => simp [hrest] at hsplit
        | cons first others =>
            rw [hrest, List.modifyHead_cons] at hsplit
            rcases List.mem_cons.mp hsplit with rfl | hsplit
            · intro d hd
              rcases List.mem_cons.mp hd with rfl | hd
              · exact List.mem_cons_self
              · exact List.mem_cons_of_mem _ (ih (by simp [hrest]) d hd)
            · exact fun d hd => List.mem_cons_of_mem _ (ih (by simp [hrest, hsplit]) d hd)

/-- One or more characters of tokens. -/
structure IsWhole (token : Text) : Prop where
  nonempty : token ≠ []
  chars : ∀ c ∈ token, isTokenChar c

/-- A part of a text: a whole token or a character between tokens. A name is looked for in `free`
tokens, behind which no parenthesis opens. -/
inductive Item
  | word (spelled : Text) (free : Bool)
  | mark (c : Char)

namespace Item

def text : Item → Text
  | word spelled _ => spelled
  | mark c => [c]

/-- The item with another token in the place of a free one. -/
def fill (stand : Text → Text) : Item → Item
  | word spelled true => word (stand spelled) true
  | item => item

/-- The item cut at a name. -/
def pieces (name : Text) : Item → List Piece
  | word spelled true =>
      if key name = key spelled then [.name spelled] else spelled.map .char
  | item => item.text.map .char

end Item

/-- The text that a row of items makes up. -/
def flat (items : List Item) : Text :=
  items.flatMap Item.text

/-- The items of a text: whole tokens do not touch, and are free as what follows them says. -/
inductive Proper : List Item → Prop
  | nil : Proper []
  | mark {c : Char} {rest : List Item} (hc : isTokenChar c = false) (h : Proper rest) :
      Proper (.mark c :: rest)
  | last {spelled : Text} (hspelled : IsWhole spelled) : Proper [.word spelled true]
  | word {spelled : Text} {c : Char} {rest : List Item} (hspelled : IsWhole spelled)
      (h : Proper (.mark c :: rest)) : Proper (.word spelled (c != '(') :: .mark c :: rest)

/-- Every text is a row of items. -/
theorem exists_proper (text : Text) : ∃ items, Proper items ∧ flat items = text := by
  induction text with
  | nil => exact ⟨[], .nil, rfl⟩
  | cons c text ih =>
      obtain ⟨items, hproper, rfl⟩ := ih
      cases hc : isTokenChar c with
      | false => exact ⟨.mark c :: items, .mark hc hproper, rfl⟩
      | true =>
          have hwhole : IsWhole [c] := ⟨List.cons_ne_nil _ _, by simpa using hc⟩
          have hlonger {spelled : Text} (h : IsWhole spelled) : IsWhole (c :: spelled) :=
            ⟨List.cons_ne_nil _ _, by simpa [hc] using h.chars⟩
          cases hproper with
          | nil => exact ⟨[.word [c] true], .last hwhole, rfl⟩
          | @mark d rest hd h =>
              exact ⟨.word [c] (d != '(') :: .mark d :: rest, .word hwhole (.mark hd h), rfl⟩
          | last h => exact ⟨[.word (c :: _) true], .last (hlonger h), rfl⟩
          | @word spelled d rest h hrest =>
              exact ⟨.word (c :: spelled) (d != '(') :: .mark d :: rest, .word (hlonger h) hrest,
                rfl⟩

namespace Proper

variable {items : List Item}

/-- Other tokens may stand in the places of the free ones. -/
theorem fill (h : Proper items) {stand : Text → Text}
    (hstand : ∀ spelled, IsWhole spelled → IsWhole (stand spelled)) :
    Proper (items.map (Item.fill stand)) := by
  induction h with
  | nil => exact .nil
  | mark hc _ ih => exact .mark hc ih
  | last hspelled => exact .last (hstand _ hspelled)
  | @word spelled c rest hspelled _ ih =>
      show Proper (Item.fill stand (.word spelled (c != '(')) :: .mark c :: rest.map _)
      cases hfree : c != '(' with
      | false =>
          have hitem := Proper.word hspelled ih
          rwa [hfree] at hitem
      | true =>
          have hitem := Proper.word (hstand _ hspelled) ih
          rwa [hfree] at hitem

theorem mem_wholeTokens (h : Proper items) {spelled : Text} {free : Bool}
    (hmem : .word spelled free ∈ items) : spelled ∈ wholeTokens (flat items) := by
  have hplain {token : Text} (htoken : IsWhole token) : ∀ c ∈ token, (!isTokenChar c) = false :=
    fun c hc => by rw [htoken.chars c hc, Bool.not_true]
  unfold wholeTokens
  induction h with
  | nil => cases hmem
  | @mark c rest hc _ ih =>
      rcases List.mem_cons.mp hmem with heq | hmem
      · cases heq
      · show spelled ∈ List.filter _ (List.splitOnP _ ([] ++ c :: flat rest))
        rw [List.splitOnP_append_cons _ _ (by simp [hc]), List.filter_append]
        exact List.mem_append_right _ (ih hmem)
  | last hspelled =>
      obtain ⟨rfl, -⟩ := Item.word.inj (List.mem_singleton.mp hmem)
      show spelled ∈ List.filter _ (List.splitOnP _ (spelled ++ []))
      rw [List.append_nil, List.splitOnP_eq_singleton (hplain hspelled)]
      simpa using hspelled.nonempty
  | @word token c rest htoken h ih =>
      have hc : isTokenChar c = false := by
        cases h
        assumption
      have hsplit (front : Text) : List.splitOnP (fun c => !isTokenChar c)
          (front ++ c :: flat rest) = _ := List.splitOnP_append_cons _ _ (by simp [hc])
      show spelled ∈ List.filter _ (List.splitOnP _ (token ++ c :: flat rest))
      rw [hsplit, List.filter_append]
      rcases List.mem_cons.mp hmem with heq | hmem
      · obtain ⟨rfl, -⟩ := Item.word.inj heq
        refine List.mem_append_left _ ?_
        rw [List.splitOnP_eq_singleton (hplain htoken)]
        simpa using htoken.nonempty
      · have hrest := ih hmem
        have hflat : flat (.mark c :: rest) = [] ++ c :: flat rest := rfl
        rw [hflat, hsplit, List.filter_append] at hrest
        exact List.mem_append_right _ (by simpa using hrest)

end Proper

section Cutting

variable {name : Text} {before : Option Char}

theorem isTokenChar_of_mem (hname : IsVariable name) {c : Char} (hc : c ∈ name) :
    isTokenChar c := by
  unfold isTokenChar
  rw [(hname.word c hc).2]
  rfl

theorem mark_not_mem_of_isVariable (hname : IsVariable name) : '#' ∉ name := by
  intro hmark
  have hword := (hname.word '#' hmark).2
  revert hword
  decide

/-- The characters of a name in another case are characters of tokens. -/
theorem isTokenChar_of_upperAscii_eq (hname : IsVariable name) {front : Text}
    (hascii : ∀ c ∈ front, c.toNat < 128) (h : Text.upperAscii front = Text.upperAscii name) :
    ∀ c ∈ front, isTokenChar c := by
  intro c hc
  have hmem : c.toUpper ∈ Text.upperAscii name := h ▸ List.mem_map_of_mem hc
  obtain ⟨d, hd, hupper⟩ := List.mem_map.mp hmem
  obtain ⟨hlow, hword⟩ := hname.word d hd
  have hsame : Text.isWord c = true := by
    rw [← Text.isWord_toUpper (hascii c hc), ← hupper, Text.isWord_toUpper hlow, hword]
  unfold isTokenChar
  rw [hsame]
  rfl

theorem cut_of_behindName?_eq_none {c : Char} {tail : Text}
    (h : behindName? name before (c :: tail) = none) :
    cut name before (c :: tail) = .char c :: cut name (some c) tail := by
  rw [cut]
  split
  next => rfl
  next heq => cases heq.symm.trans h

theorem cut_of_behindName?_eq_some (hname : name ≠ []) {c : Char} {tail rest : Text}
    (h : behindName? name before (c :: tail) = some rest) :
    cut name before (c :: tail) =
      .name ((c :: tail).take name.length) :: cut name (c :: tail)[name.length - 1]? rest := by
  rw [cut]
  split
  next heq => cases heq.symm.trans h
  next heq => rw [if_neg (by simpa using hname), Option.some.inj (heq.symm.trans h)]

theorem behindName?_of_any (h : before.any isTokenChar) (text : Text) :
    behindName? name before text = none := by
  unfold behindName?
  rw [if_pos h]

/-- Behind a character of a token no name is found in the rest of the token. -/
theorem cut_append (hbefore : before.any isTokenChar) {token : Text}
    (htoken : ∀ c ∈ token, isTokenChar c) (rest : Text) :
    ∃ last, last.any isTokenChar ∧
      cut name before (token ++ rest) = token.map .char ++ cut name last rest := by
  induction token generalizing before with
  | nil => exact ⟨before, hbefore, rfl⟩
  | cons c token ih =>
      have hc : (some c).any isTokenChar = true := htoken c List.mem_cons_self
      obtain ⟨last, hlast, heq⟩ := ih hc fun d hd => htoken d (List.mem_cons_of_mem _ hd)
      refine ⟨last, hlast, ?_⟩
      rw [List.cons_append, cut_of_behindName?_eq_none (behindName?_of_any hbefore _), heq]
      rfl

/-- A text is found to begin with a name just when the name spells its first whole token, up to
case, and no parenthesis opens behind it. -/
theorem behindName?_append (hname : IsVariable name) (hbefore : before.any isTokenChar = false)
    {token rest : Text} (htoken : ∀ c ∈ token, isTokenChar c)
    (hrest : rest.head?.any isTokenChar = false) (hascii : ∀ c ∈ token ++ rest, c.toNat < 128) :
    behindName? name before (token ++ rest) =
      if rest.head? ≠ some '(' ∧ key name = key token then some rest else none := by
  have hkey : key name = key token ↔ Text.upperAscii token = Text.upperAscii name := by
    unfold key
    rw [Text.upper_of_ascii fun c hc => (hname.word c hc).1,
      Text.upper_of_ascii fun c hc => hascii c (List.mem_append_left _ hc), eq_comm]
  have hdrop (found : Text) : Text.dropCaseless? name (token ++ rest) = some found ↔ _ :=
    Text.dropCaseless?_eq_some_iff (fun c hc => (hname.word c hc).1) hascii
  unfold behindName?
  rw [hbefore, if_neg Bool.false_ne_true]
  cases hfound : Text.dropCaseless? name (token ++ rest) with
  | none =>
      refine (if_neg fun h => ?_).symm
      have hsome := (hdrop rest).mpr ⟨token, rfl, hkey.mp h.2⟩
      cases hsome.symm.trans hfound
  | some found =>
      obtain ⟨front, htext, hfront⟩ := (hdrop found).mp hfound
      have hchars := isTokenChar_of_upperAscii_eq hname
        (fun c hc => hascii c (htext ▸ List.mem_append_left _ hc)) hfront
      dsimp only
      have hends : (front = token ∧ found = rest) ∨
          ∃ c more, token = front ++ c :: more ∧ found = c :: (more ++ rest) := by
        rcases List.append_eq_append_iff.mp htext with
          ⟨more, hmore, hbehind⟩ | ⟨more, hmore, hbehind⟩
        · cases more with
          | nil => exact .inl ⟨by simpa using hmore, by simpa using hbehind.symm⟩
          -- the name does not reach over the end of the token
          | cons c more =>
              rw [hbehind, List.cons_append, List.head?_cons, Option.any_some,
                hchars c (by simp [hmore])] at hrest
              cases hrest
        · cases more with
          | nil => exact .inl ⟨by simpa using hmore.symm, hbehind⟩
          | cons c more => exact .inr ⟨c, more, hmore, hbehind⟩
      rcases hends with ⟨rfl, rfl⟩ | ⟨c, more, hmore, rfl⟩
      · have hkeys := hkey.mpr hfront
        cases hhead : found.head? with
        | none => simp [hkeys]
        | some c =>
            rw [hhead, Option.any_some] at hrest
            simp [hrest, hkeys]
      · have hkeys : ¬ key name = key token := fun h => by
          have hsame := congrArg List.length (hfront.trans (hkey.mp h).symm)
          simp only [Text.upperAscii, List.length_map, hmore, List.length_append,
            List.length_cons] at hsame
          omega
        simp [htoken c (by simp [hmore]), hkeys]

/-- A whole token is taken for the name or left as it is. -/
theorem exists_cut_append (hname : IsVariable name) (hbefore : before.any isTokenChar = false)
    {token rest : Text} (htoken : IsWhole token) (hrest : rest.head?.any isTokenChar = false)
    (hascii : ∀ c ∈ token ++ rest, c.toNat < 128) :
    ∃ last, cut name before (token ++ rest) =
      (if rest.head? ≠ some '(' ∧ key name = key token then [.name token] else token.map .char) ++
        cut name last rest := by
  have hbehind := behindName?_append hname hbefore htoken.chars hrest hascii
  obtain ⟨c, tail, rfl⟩ := List.exists_cons_of_ne_nil htoken.nonempty
  by_cases hfound : rest.head? ≠ some '(' ∧ key name = key (c :: tail)
  · rw [if_pos hfound] at hbehind ⊢
    have hlength : name.length = (c :: tail).length := by
      have hsize := length_behindName? hbehind
      rw [List.length_append] at hsize
      omega
    rw [List.cons_append] at hbehind ⊢
    rw [cut_of_behindName?_eq_some hname.nonempty hbehind, hlength, ← List.cons_append,
      List.take_left]
    exact ⟨_, rfl⟩
  · rw [if_neg hfound, List.cons_append] at hbehind
    rw [if_neg hfound]
    have hc : (some c).any isTokenChar = true := htoken.chars c List.mem_cons_self
    obtain ⟨last, -, heq⟩ : ∃ last : Option Char, last.any isTokenChar ∧
        cut name (some c) (tail ++ rest) = tail.map .char ++ cut name last rest :=
      cut_append hc (fun d hd => htoken.chars d (List.mem_cons_of_mem c hd)) rest
    refine ⟨last, ?_⟩
    rw [List.cons_append, cut_of_behindName?_eq_none hbehind, heq]
    rfl

theorem cut_nil (hname : name ≠ []) : cut name before [] = [] := by
  have hnone : behindName? name before [] = none := by
    obtain ⟨c, tail, rfl⟩ := List.exists_cons_of_ne_nil hname
    unfold behindName?
    split <;> rfl
  rw [cut, hnone]
  rfl

/-- A whole token stands behind another character. -/
theorem IsWhole.apart {token : Text} (h : IsWhole token) {rest : Text}
    (hbefore : before.any isTokenChar → (token ++ rest).head?.any isTokenChar = false) :
    before.any isTokenChar = false := by
  obtain ⟨c, tail, rfl⟩ := List.exists_cons_of_ne_nil h.nonempty
  refine eq_false_of_ne_true fun hany => ?_
  have hfalse := (h.chars c List.mem_cons_self).symm.trans (hbefore hany)
  cases hfalse

/-- A text is cut at a name item by item. -/
theorem cut_flat (hname : IsVariable name) {items : List Item} (h : Proper items)
    (hascii : ∀ c ∈ flat items, c.toNat < 128)
    (hbefore : before.any isTokenChar → (flat items).head?.any isTokenChar = false) :
    cut name before (flat items) = items.flatMap (Item.pieces name) := by
  induction h generalizing before with
  | nil => exact cut_nil hname.nonempty
  | @mark c rest hc _ ih =>
      have hnone : behindName? name before (c :: flat rest) = none := by
        cases hany : before.any isTokenChar with
        | true => exact behindName?_of_any hany _
        | false =>
            have hbehind : behindName? name before ([] ++ c :: flat rest) = _ :=
              behindName?_append hname hany (by simp) hc hascii
            refine hbehind.trans (if_neg fun h => hname.nonempty ?_)
            have hkey : Text.upper name = Text.upper [] := h.2
            rw [Text.upper_of_ascii fun d hd => (hname.word d hd).1] at hkey
            exact List.map_eq_nil_iff.mp hkey
      have hrest : cut name (some c) (flat rest) = _ :=
        ih (fun d hd => hascii d (List.mem_cons_of_mem c hd))
          (fun hany => absurd (hc.symm.trans hany) Bool.false_ne_true)
      show cut name before (c :: flat rest) = _
      rw [cut_of_behindName?_eq_none hnone, hrest]
      rfl
  | @last spelled hspelled =>
      have hflat : flat [.word spelled true] = spelled ++ [] := rfl
      rw [hflat] at hbefore hascii ⊢
      obtain ⟨last, heq⟩ := exists_cut_append hname (hspelled.apart hbefore) hspelled rfl hascii
      rw [heq, cut_nil hname.nonempty]
      simp [Item.pieces]
  | @word spelled c rest hspelled h ih =>
      have hflat : flat (.word spelled (c != '(') :: .mark c :: rest) =
        spelled ++ flat (.mark c :: rest) := rfl
      have hhead : (flat (.mark c :: rest)).head? = some c := rfl
      have hc : (flat (.mark c :: rest)).head?.any isTokenChar = false := by
        cases h
        assumption
      rw [hflat] at hbefore hascii ⊢
      obtain ⟨last, heq⟩ := exists_cut_append hname (hspelled.apart hbefore) hspelled hc hascii
      have hrest : cut name last (flat (.mark c :: rest)) = _ :=
        ih (fun d hd => hascii d (List.mem_append_right _ hd)) (fun _ => hc)
      rw [heq, hrest, hhead, List.flatMap_cons]
      congr 1
      cases hfree : c != '(' <;> simp_all [Item.pieces, Item.text]

end Cutting

section Filling

/-- The placeholder of the first name that a token spells, or the token. -/
def standIn (entries : List (Text × Nat)) (token : Text) : Text :=
  match entries.find? fun entry => key entry.1 == key token with
  | some entry => placeholder entry.2
  | none => token

variable {name token : Text} {items : List Item}

theorem isWhole_placeholder (index : Nat) : IsWhole (placeholder index) := by
  refine ⟨List.cons_ne_nil _ _, fun c hc => ?_⟩
  rcases mark_or_isDigit_of_mem hc with rfl | hdigit
  · decide
  · have hword : Text.isWord c := by
      have hcode : 48 ≤ c.toNat ∧ c.toNat ≤ 57 := by
        simpa [Char.isDigit, UInt32.le_iff_toNat_le] using hdigit
      unfold Text.isWord
      rw [if_pos (by omega : c.toNat < 128)]
      simp [Char.isAlphanum, hdigit]
    unfold isTokenChar
    rw [hword]
    rfl

theorem ascii_placeholder {index : Nat} {c : Char} (hc : c ∈ placeholder index) :
    c.toNat < 128 := by
  rcases mark_or_isDigit_of_mem hc with rfl | hdigit
  · decide
  · have hcode : 48 ≤ c.toNat ∧ c.toNat ≤ 57 := by
      simpa [Char.isDigit, UInt32.le_iff_toNat_le] using hdigit
    omega

theorem placeholder_injective {i j : Nat} (h : placeholder i = placeholder j) : i = j := by
  have hdigits : Nat.toDigits 10 i = Nat.toDigits 10 j := by
    simpa [placeholder] using h
  rw [← Nat.ofDigitChars_ten_toDigits (n := i), hdigits, Nat.ofDigitChars_ten_toDigits]

/-- No name spells a placeholder. -/
theorem key_ne_placeholder (hname : IsVariable name) (index : Nat) :
    key name ≠ key (placeholder index) := by
  intro h
  unfold key at h
  rw [Text.upper_of_ascii fun c hc => (hname.word c hc).1,
    Text.upper_of_ascii fun c hc => ascii_placeholder hc] at h
  obtain ⟨c, tail, rfl, -⟩ := hname.exists_cons
  obtain ⟨hascii, hword⟩ := hname.word c List.mem_cons_self
  have hmark : Text.isWord '#' = true := by
    rw [← hword, ← Text.isWord_toUpper hascii, (List.cons.inj h).1]
    rfl
  cases hmark

theorem isWhole_standIn (entries : List (Text × Nat)) (h : IsWhole token) :
    IsWhole (standIn entries token) := by
  unfold standIn
  split
  next => exact isWhole_placeholder _
  next => exact h

/-- A name that is looked for after others finds the tokens that those have left. -/
theorem standIn_concat (hname : IsVariable name) (entries : List (Text × Nat)) (index : Nat) :
    standIn (entries ++ [(name, index)]) token =
      if key name = key (standIn entries token) then placeholder index
      else standIn entries token := by
  unfold standIn
  rw [List.find?_append]
  cases entries.find? fun entry => key entry.1 == key token with
  | some entry => exact (if_neg (key_ne_placeholder hname _)).symm
  | none =>
      by_cases hkey : key name = key token <;> simp [hkey]

/-- A text with a token in the places of a name is filled item by item. -/
theorem flatMap_replaced_pieces (name token : Text) (items : List Item) :
    (items.flatMap (Item.pieces name)).flatMap (Piece.replaced token) =
      flat (items.map (Item.fill fun spelled =>
        if key name = key spelled then token else spelled)) := by
  have hchars (text : Text) : (text.map Piece.char).flatMap (Piece.replaced token) = text := by
    rw [List.flatMap_map]
    exact List.flatMap_singleton' text
  unfold flat
  rw [List.flatMap_assoc, List.flatMap_map]
  refine List.flatMap_congr fun item _ => ?_
  cases item with
  | mark c => exact hchars [c]
  | word spelled free =>
      cases free with
      | false => exact hchars spelled
      | true =>
          show ((if key name = key spelled then [Piece.name spelled] else spelled.map .char).flatMap
            (Piece.replaced token)) = (if key name = key spelled then token else spelled)
          split
          next => simp [Piece.replaced]
          next => exact hchars spelled

/-- A name occurs where a free token spells it. -/
theorem any_isName_pieces {name : Text} {items : List Item} :
    (items.flatMap (Item.pieces name)).any Piece.isName ↔
      ∃ spelled, .word spelled true ∈ items ∧ key name = key spelled := by
  have hchars (text : Text) : (text.map Piece.char).any Piece.isName = false := by
    simp [Piece.isName]
  rw [List.any_flatMap, List.any_eq_true]
  constructor
  · rintro ⟨item, hmem, hany⟩
    cases item with
    | mark c => cases (hchars [c]).symm.trans hany
    | word spelled free =>
        cases free with
        | false => cases (hchars spelled).symm.trans hany
        | true =>
            by_cases hkey : key name = key spelled
            · exact ⟨spelled, hmem, hkey⟩
            · rw [Item.pieces, if_neg hkey, hchars] at hany
              cases hany
  · rintro ⟨spelled, hmem, hkey⟩
    refine ⟨_, hmem, ?_⟩
    rw [Item.pieces, if_pos hkey]
    rfl

/-- An expression with placeholders for the names that have been looked for. The placeholders that a
free token was replaced by are recorded, in the order of the names. -/
structure Filled (items : List Item) (entries : List (Text × Nat)) (prepared : Prepared) :
    Prop where
  text : prepared.text = flat (items.map (Item.fill (standIn entries)))
  ordered : prepared.names.Sublist (entries.map fun entry => (placeholder entry.2, entry.1))
  used : ∀ entry ∈ prepared.names, ∃ spelled found, .word spelled true ∈ items ∧
    (entries.find? fun entry => key entry.1 == key spelled) = some found ∧
    entry = (placeholder found.2, found.1)
  entry : ∀ spelled found, .word spelled true ∈ items →
    (entries.find? fun entry => key entry.1 == key spelled) = some found →
      (placeholder found.2, found.1) ∈ prepared.names

/-- A token that no name has been found in is left to the names that follow. -/
theorem find?_concat {entries : List (Text × Nat)} {spelled : Text} {entry found : Text × Nat} :
    ((entries ++ [entry]).find? fun entry => key entry.1 == key spelled) = some found ↔
      (entries.find? fun entry => key entry.1 == key spelled) = some found ∨
        found = entry ∧ (entries.find? fun entry => key entry.1 == key spelled) = none ∧
          key entry.1 = key spelled := by
  rw [List.find?_append, List.find?_singleton]
  cases entries.find? fun entry => key entry.1 == key spelled with
  | some old => simp
  | none =>
      by_cases hkey : key entry.1 = key spelled
      · simp [hkey, @eq_comm _ entry]
      · simp [hkey]

theorem Item.fill_fill (f g : Text → Text) (item : Item) :
    (item.fill f).fill g = item.fill (g ∘ f) := by
  cases item with
  | mark c => rfl
  | word spelled free => cases free <;> rfl

theorem ascii_fill (hascii : ∀ c ∈ flat items, c.toNat < 128) (entries : List (Text × Nat)) :
    ∀ c ∈ flat (items.map (Item.fill (standIn entries))), c.toNat < 128 := by
  intro c hc
  obtain ⟨_, hitem, hc⟩ := List.mem_flatMap.mp hc
  obtain ⟨item, hmem, rfl⟩ := List.mem_map.mp hitem
  have htext : ∀ d ∈ item.text, d.toNat < 128 := fun d hd =>
    hascii d (List.mem_flatMap.mpr ⟨item, hmem, hd⟩)
  cases item with
  | mark d => exact htext c hc
  | word spelled free =>
      cases free with
      | false => exact htext c hc
      | true =>
          have hstand : c ∈ standIn entries spelled := hc
          unfold standIn at hstand
          split at hstand
          next => exact ascii_placeholder hstand
          next => exact htext c hstand

/-- A name finds what the names before it have left. -/
theorem key_standIn_iff {entries : List (Text × Nat)} (hname : IsVariable name) :
    key name = key (standIn entries token) ↔
      (entries.find? fun entry => key entry.1 == key token) = none ∧ key name = key token := by
  unfold standIn
  cases entries.find? fun entry => key entry.1 == key token with
  | some entry => simp [key_ne_placeholder hname]
  | none => simp

/-- A name occurs where it spells a free token in which no other name has been found. -/
theorem any_isName_fill {items : List Item} {entries : List (Text × Nat)} :
    ((items.map (Item.fill (standIn entries))).flatMap (Item.pieces name)).any Piece.isName ↔
      ∃ spelled, .word spelled true ∈ items ∧ key name = key (standIn entries spelled) := by
  rw [any_isName_pieces]
  constructor
  · rintro ⟨_, hmem, hkey⟩
    obtain ⟨item, hitem, heq⟩ := List.mem_map.mp hmem
    rcases item with ⟨spelled, _ | _⟩ | c
    · cases heq
    · obtain ⟨rfl, -⟩ := Item.word.inj heq
      exact ⟨spelled, hitem, hkey⟩
    · cases heq
  · rintro ⟨spelled, hmem, hkey⟩
    exact ⟨_, List.mem_map_of_mem hmem, hkey⟩

namespace Filled

variable {items : List Item} {entries : List (Text × Nat)} {prepared : Prepared}

theorem used_concat (h : Filled items entries prepared) (last : Text × Nat) :
    ∀ entry ∈ prepared.names, ∃ spelled found, .word spelled true ∈ items ∧
      ((entries ++ [last]).find? fun entry => key entry.1 == key spelled) = some found ∧
      entry = (placeholder found.2, found.1) := by
  intro entry hentry
  obtain ⟨spelled, found, hmem, hfind, heq⟩ := h.used entry hentry
  exact ⟨spelled, found, hmem, find?_concat.mpr (.inl hfind), heq⟩

/-- A name that no token has been left to changes nothing. -/
theorem concat (h : Filled items entries prepared) (hname : IsVariable name) (index : Nat)
    (habsent : ∀ spelled, .word spelled true ∈ items →
      ¬ key name = key (standIn entries spelled)) :
    Filled items (entries ++ [(name, index)]) prepared where
  text := by
    rw [h.text]
    congr 1
    refine List.map_congr_left fun item hmem => ?_
    cases item with
    | mark c => rfl
    | word spelled free =>
        cases free with
        | false => rfl
        | true =>
            show Item.word (standIn entries spelled) true =
              .word (standIn (entries ++ _) spelled) true
            rw [standIn_concat hname, if_neg (habsent spelled hmem)]
  ordered := by
    rw [List.map_append]
    exact h.ordered.trans (List.sublist_append_left _ _)
  used := h.used_concat (name, index)
  entry spelled found hmem hfind := by
    rcases find?_concat.mp hfind with hold | ⟨-, hnone, hkey⟩
    · exact h.entry spelled found hmem hold
    · exact absurd ((key_standIn_iff hname).mpr ⟨hnone, hkey⟩) (habsent spelled hmem)

/-- One more name is looked for. -/
theorem substitute (hitems : Proper items) (hascii : ∀ c ∈ flat items, c.toNat < 128)
    (h : Filled items entries prepared) (hname : IsVariable name) (index : Nat) :
    Filled items (entries ++ [(name, index)])
      (prepared.substitute (placeholder index) name) := by
  have hcut : cut name none prepared.text =
      (items.map (Item.fill (standIn entries))).flatMap (Item.pieces name) := by
    rw [h.text]
    exact cut_flat hname (hitems.fill fun _ => isWhole_standIn entries) (ascii_fill hascii entries)
      nofun
  unfold Prepared.substitute
  dsimp only
  split
  next hany =>
    refine ⟨?_, ?_, ?_, ?_⟩
    · show (cut name none prepared.text).flatMap (Piece.replaced (placeholder index)) = _
      rw [hcut, flatMap_replaced_pieces, List.map_map]
      congr 1
      refine List.map_congr_left fun item _ => (Item.fill_fill _ _ item).trans ?_
      congr 1
      funext spelled
      exact (standIn_concat hname entries index).symm
    · simpa using h.ordered.append (List.Sublist.refl [(placeholder index, name)])
    · intro entry hentry
      rcases List.mem_append.mp hentry with hentry | hentry
      · exact h.used_concat (name, index) entry hentry
      · obtain ⟨spelled, hmem, hkey⟩ := any_isName_fill.mp (hcut ▸ hany)
        obtain ⟨hnone, hkey⟩ := (key_standIn_iff hname).mp hkey
        exact ⟨spelled, (name, index), hmem, find?_concat.mpr (.inr ⟨rfl, hnone, hkey⟩),
          List.mem_singleton.mp hentry⟩
    · intro spelled found hmem hfind
      rcases find?_concat.mp hfind with hold | ⟨rfl, -⟩
      · exact List.mem_append_left _ (h.entry spelled found hmem hold)
      · exact List.mem_append_right _ (List.mem_singleton_self _)
  next hnone =>
    rw [hcut, any_isName_fill] at hnone
    exact h.concat hname index fun spelled hmem hkey => hnone ⟨spelled, hmem, hkey⟩

end Filled

/-- Looking for names one after the other puts a placeholder for every free token that spells
one. -/
theorem filled_substituteAll {source : Text} {names : List Text}
    (hnames : ∀ name ∈ names, IsVariable name) (hitems : Proper items)
    (hascii : ∀ c ∈ flat items, c.toNat < 128) :
    Filled items names.zipIdx
      (Prepared.substituteAll { source, text := flat items } names) := by
  have hfold (entries : List (Text × Nat)) (hentries : ∀ entry ∈ entries, IsVariable entry.1) :
      Filled items entries (entries.foldl (fun prepared entry =>
        prepared.substitute (placeholder entry.2) entry.1) { source, text := flat items }) := by
    induction entries using List.reverseRecOn with
    | nil =>
        have hsame : items.map (Item.fill (standIn [])) = items := by
          refine (List.map_congr_left fun item _ => ?_).trans (List.map_id _)
          rcases item with ⟨spelled, _ | _⟩ | c <;> rfl
        exact ⟨congrArg flat hsame.symm, .slnil, nofun, nofun⟩
    | append_singleton entries entry ih =>
        rw [List.foldl_append]
        exact (ih fun other hother => hentries other (List.mem_append_left _ hother)).substitute
          hitems hascii (hentries entry (by simp)) entry.2
  apply hfold
  intro entry hentry
  exact hnames _ (List.fst_mem_of_mem_zipIdx hentry)

/-- A prepared expression has a placeholder for every token that spells a name. -/
theorem filled_prepare {source : Text} {names : List Text} {prepared : Prepared}
    (hsource : ∀ c ∈ Text.squeeze source, c.toNat < 128) (hnames : ∀ name ∈ names, IsVariable name)
    (h : prepare source names = .ok prepared) (hitems : Proper items)
    (hflat : flat items = Text.squeeze source) : Filled items names.zipIdx prepared := by
  rw [prepare_eq_ok h, ← hflat]
  exact filled_substituteAll hnames hitems (hflat ▸ hsource)

/-- A placeholder is recorded with the first name that a free token spells. -/
theorem Filled.name?_eq_some_iff {names : List Text} {prepared : Prepared}
    (h : Filled items names.zipIdx prepared) :
    prepared.name? token = some name ↔ ∃ spelled found, .word spelled true ∈ items ∧
      (names.zipIdx.find? fun entry => key entry.1 == key spelled) = some found ∧
      token = placeholder found.2 ∧ name = found.1 := by
  constructor
  · intro hname
    obtain ⟨entry, hentry, hvalue⟩ := Option.map_eq_some_iff.mp hname
    obtain ⟨spelled, found, hmem, hfind, rfl⟩ := h.used entry (List.mem_of_find?_eq_some hentry)
    have htoken : placeholder found.2 = token := by simpa using List.find?_some hentry
    exact ⟨spelled, found, hmem, hfind, htoken.symm, hvalue.symm⟩
  · rintro ⟨spelled, found, hmem, hfind, rfl, rfl⟩
    have hentry := h.entry spelled found hmem hfind
    obtain ⟨entry, hentry'⟩ : ∃ entry, (prepared.names.find? fun entry =>
        entry.1 == placeholder found.2) = some entry := by
      rw [← Option.isSome_iff_exists, List.find?_isSome]
      exact ⟨_, hentry, beq_self_eq_true _⟩
    obtain ⟨_, other, _, hother, rfl⟩ := h.used entry (List.mem_of_find?_eq_some hentry')
    have hindex : other.2 = found.2 :=
      placeholder_injective (by simpa using List.find?_some hentry')
    -- one place of the list has one name
    have hname := List.mem_zipIdx_iff_getElem?.mp (List.mem_of_find?_eq_some hother)
    have hname' := List.mem_zipIdx_iff_getElem?.mp (List.mem_of_find?_eq_some hfind)
    rw [hindex, hname'] at hname
    unfold Prepared.name?
    rw [hentry', Option.map_some, Option.some.inj hname]

/-- A placeholder in a prepared expression stands for the first name that its token spells. -/
theorem Filled.name?_eq {names : List Text} {prepared : Prepared}
    (h : Filled items names.zipIdx prepared) {spelled : Text} {found : Text × Nat}
    (hmem : .word spelled true ∈ items)
    (hfind : (names.zipIdx.find? fun entry => key entry.1 == key spelled) = some found) :
    prepared.name? (placeholder found.2) = some found.1 :=
  h.name?_eq_some_iff.mpr ⟨spelled, found, hmem, hfind, rfl, rfl⟩

/-- Texts with related names in the same places are alike. -/
theorem alike_flat {p : Char → Prop} {W : Text → Text → Prop} {f g : Text → Text}
    (hitems : ∀ item ∈ items, ∀ c ∈ item.text, p c)
    (h : ∀ spelled, .word spelled true ∈ items →
      f spelled = spelled ∧ g spelled = spelled ∨ W (f spelled) (g spelled)) :
    Alike (Shared p) W (flat (items.map (Item.fill f))) (flat (items.map (Item.fill g))) := by
  induction items with
  | nil => exact .nil
  | cons item items ih =>
      have hrest := ih (fun other hother => hitems other (List.mem_cons_of_mem _ hother))
        fun spelled hmem => h spelled (List.mem_cons_of_mem _ hmem)
      have hsame : Alike (Shared p) W item.text item.text :=
        .of_chars fun c hc => ⟨rfl, hitems item List.mem_cons_self c hc⟩
      refine .append ?_ hrest
      cases item with
      | mark c => exact hsame
      | word spelled free =>
          cases free with
          | false => exact hsame
          | true =>
              show Alike _ W (f spelled) (g spelled)
              rcases h spelled List.mem_cons_self with ⟨hf, hg⟩ | hW
              · rw [hf, hg]
                exact hsame
              · exact .of_name hW

/-- What stands in the same places of an expression prepared for two lists of names: placeholders
for names that one whole token spells, or a placeholder for a name and the token that spells it,
which no name of the second list spells. -/
inductive Named (source : Text) (names' : List Text) (prepared prepared' : Prepared) :
    Text → Text → Prop
  | both {i j : Nat} {token name name' : Text} (htoken : token ∈ wholeTokens (Text.squeeze source))
      (hname : prepared.name? (placeholder i) = some name)
      (hname' : prepared'.name? (placeholder j) = some name') (hkey : key name = key token)
      (hkey' : key name' = key token) :
      Named source names' prepared prepared' (placeholder i) (placeholder j)
  | first {i : Nat} {token name : Text} (htoken : token ∈ wholeTokens (Text.squeeze source))
      (hname : prepared.name? (placeholder i) = some name) (hkey : key name = key token)
      (hnone : ∀ name' ∈ names', key name' ≠ key token) :
      Named source names' prepared prepared' (placeholder i) token

/-- Names that spell the same tokens of an expression are replaced in the same places. A token that
only names of the one list spell stands in the place of a placeholder. -/
theorem alike_prepare {source : Text} {names names' : List Text} {prepared prepared' : Prepared}
    (hsource : ∀ c ∈ Text.squeeze source, c.toNat < 128 ∧ c ≠ '#')
    (hnames : ∀ name ∈ names, IsVariable name) (hnames' : ∀ name ∈ names', IsVariable name)
    (hbound : ∀ token ∈ wholeTokens (Text.squeeze source),
      (∃ name ∈ names', key name = key token) → ∃ name ∈ names, key name = key token)
    (h : prepare source names = .ok prepared) (h' : prepare source names' = .ok prepared') :
    Alike (Shared (· ≠ '#')) (Named source names' prepared prepared') prepared.text
      prepared'.text := by
  obtain ⟨items, hitems, hflat⟩ := exists_proper (Text.squeeze source)
  have hascii : ∀ c ∈ Text.squeeze source, c.toNat < 128 := fun c hc => (hsource c hc).1
  have hfilled := filled_prepare hascii hnames h hitems hflat
  have hfilled' := filled_prepare hascii hnames' h' hitems hflat
  have hfinds (names : List Text) (token : Text) :
      (names.zipIdx.find? fun entry => key entry.1 == key token).isSome ↔
        ∃ name ∈ names, key name = key token := by
    rw [List.find?_isSome]
    constructor
    · rintro ⟨entry, hentry, hkey⟩
      exact ⟨entry.1, List.fst_mem_of_mem_zipIdx hentry, eq_of_beq hkey⟩
    · rintro ⟨name, hname, hkey⟩
      obtain ⟨index, hindex⟩ := List.mem_iff_getElem?.mp hname
      exact ⟨(name, index), List.mem_zipIdx_iff_getElem?.mpr hindex, by simpa using hkey⟩
  rw [hfilled.text, hfilled'.text]
  refine alike_flat (fun item hitem c hc => ?_) fun spelled hmem => ?_
  · exact (hsource c (hflat ▸ List.mem_flatMap.mpr ⟨item, hitem, hc⟩)).2
  · have htoken : spelled ∈ wholeTokens (Text.squeeze source) := hflat ▸ hitems.mem_wholeTokens hmem
    have hsome := (hfinds names spelled).mpr ∘ hbound spelled htoken ∘ (hfinds names' spelled).mp
    unfold standIn
    cases hfind : names.zipIdx.find? fun entry => key entry.1 == key spelled with
    | none =>
        cases hfind' : names'.zipIdx.find? fun entry => key entry.1 == key spelled with
        | none => exact .inl ⟨rfl, rfl⟩
        | some found' => simp [hfind, hfind'] at hsome
    | some found =>
        have hname := hfilled.name?_eq hmem hfind
        have hkey : key found.1 = key spelled := by simpa using List.find?_some hfind
        cases hfind' : names'.zipIdx.find? fun entry => key entry.1 == key spelled with
        | none =>
            refine .inr (.first htoken hname hkey fun name' hmem' hkey' => ?_)
            have hsome' := (hfinds names' spelled).mpr ⟨name', hmem', hkey'⟩
            rw [hfind'] at hsome'
            cases hsome'
        | some found' =>
            have hkey' : key found'.1 = key spelled := by simpa using List.find?_some hfind'
            exact .inr (.both htoken hname (hfilled'.name?_eq hmem hfind') hkey hkey')

end Filling

end Expression

end MapAlgebra
