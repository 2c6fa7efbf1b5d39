import Mathlib.Data.List.Infix
import MapAlgebra.Proofs.Blanks

/-!
# Equal signs

An assignment is divided at its one equal sign, while marks stand for the comparison operators. A
character in front of a mark or behind it may make another mark with a part of it, and then the
operators do not come back where they were. Nothing else is lost.
-/

namespace MapAlgebra

namespace Text

variable {old new : Text}

theorem replace_append (h : old ≠ []) (rest : Text) :
    replace old new (old ++ rest) = new ++ replace old new rest := by
  obtain ⟨c, tail, rfl⟩ := List.exists_cons_of_ne_nil h
  have hprefix : (c :: tail).isPrefixOf (c :: (tail ++ rest)) :=
    List.isPrefixOf_iff_prefix.mpr (List.prefix_append (c :: tail) rest)
  rw [List.cons_append, replace, if_pos hprefix, List.length_cons, Nat.add_sub_cancel,
    List.drop_left]

theorem replace_cons {c : Char} {rest : Text} (h : ¬ old <+: c :: rest) :
    replace old new (c :: rest) = c :: replace old new rest := by
  rw [replace, if_neg (by rwa [List.isPrefixOf_iff_prefix])]

end Text

namespace Script

/-- The comparison operators that are hidden, in the order in which that is done. -/
inductive Comparison
  | equal
  | notEqual
  | greaterEqual
  | lesserEqual
  deriving DecidableEq, Repr

namespace Comparison

def all : List Comparison := [equal, notEqual, greaterEqual, lesserEqual]

def rank : Comparison → Nat
  | equal => 0
  | notEqual => 1
  | greaterEqual => 2
  | lesserEqual => 3

/-- The character in front of the last equal sign. -/
def first : Comparison → Char
  | equal => '='
  | notEqual => '!'
  | greaterEqual => '>'
  | lesserEqual => '<'

def digit : Comparison → Char
  | equal => '1'
  | notEqual => '2'
  | greaterEqual => '3'
  | lesserEqual => '4'

def sign (k : Comparison) : Text := [k.first, '=']

def mark (k : Comparison) : Text := ['#', '@', k.digit, '#']

theorem hidden_eq : hidden = all.map fun k => (k.sign, k.mark) := rfl

theorem sign_append (k : Comparison) (text : Text) : k.sign ++ text = k.first :: '=' :: text := rfl

theorem mark_append (k : Comparison) (text : Text) :
    k.mark ++ text = '#' :: '@' :: k.digit :: '#' :: text := rfl

theorem rank_injective {j k : Comparison} (h : j.rank = k.rank) : j = k := by
  cases j <;> cases k <;> simp_all [rank]

theorem first_injective {j k : Comparison} (h : j.first = k.first) : j = k := by
  cases j <;> cases k <;> simp_all [first]

theorem digit_injective {j k : Comparison} (h : j.digit = k.digit) : j = k := by
  cases j <;> cases k <;> simp_all [digit]

/-- Nothing in a mark is the first character of an operator. -/
theorem first_not_mem_mark (j k : Comparison) : k.first ∉ j.mark := by
  cases j <;> cases k <;> decide

end Comparison

/-- A character or a comparison operator. -/
inductive Symbol
  | char (c : Char)
  | comparison (k : Comparison)
  deriving DecidableEq, Repr

/-- The comparison operator that two characters make in front of a text. Equal signs in a row are
taken two by two, so that behind the other operators there is no second one. -/
def leadingComparison? (c d : Char) (rest : Text) : Option Comparison :=
  Comparison.all.find? fun k =>
    k.first == c && d == '=' && (k == .equal || rest.head? != some '=')

/-- A text with its comparison operators told from its other characters. -/
def symbols : Text → List Symbol
  | [] => []
  | [c] => [.char c]
  | c :: d :: rest =>
      match leadingComparison? c d rest with
      | some k => .comparison k :: symbols rest
      | none => .char c :: symbols (d :: rest)

namespace Symbol

/-- The text of a symbol, where marks stand for some of the comparison operators. -/
def written (marked : Comparison → Bool) : Symbol → Text
  | char c => [c]
  | comparison k => if marked k then k.mark else k.sign

/-- Whether the mark of an operator can begin at the end of a symbol, when it is put back: at a
character as it is, or at the mark of an operator that is put back later. -/
def opens (k : Comparison) : Symbol → Bool
  | char c => c == '#'
  | comparison j => k.rank < j.rank

/-- Whether the mark of an operator can end at the beginning of a symbol. -/
def closes (k : Comparison) : Symbol → Bool
  | char c => c == '#'
  | comparison j => k.rank ≤ j.rank

end Symbol

/-- The middle of the mark of an operator stands between two symbols at which it can begin and
end. -/
def FormsMark (list : List Symbol) : Prop :=
  ∃ (k : Comparison) (before after : Symbol),
    [before, .char '@', .char k.digit, after] <:+: list ∧ before.opens k ∧ after.closes k

section Symbols

open Comparison

theorem eq_of_leadingComparison? {c d : Char} {rest : Text} {k : Comparison}
    (h : leadingComparison? c d rest = some k) :
    c = k.first ∧ d = '=' ∧ (k = .equal ∨ rest.head? ≠ some '=') := by
  have hfound := List.find?_some h
  simp only [Bool.and_eq_true, Bool.or_eq_true, beq_iff_eq, bne_iff_ne] at hfound
  exact ⟨hfound.1.1.symm, hfound.1.2, hfound.2⟩

theorem head?_of_leadingComparison?_eq_none {k : Comparison} {rest : Text}
    (h : leadingComparison? k.first '=' rest = none) : k ≠ .equal ∧ rest.head? = some '=' := by
  have hnone := List.find?_eq_none.mp h k (by cases k <;> decide)
  simpa using hnone

theorem flatMap_written_symbols (text : Text) :
    (symbols text).flatMap (Symbol.written fun _ => false) = text := by
  fun_induction symbols text with
  | case1 => rfl
  | case2 c => rfl
  | case3 c d rest k h ih =>
      obtain ⟨rfl, rfl, -⟩ := eq_of_leadingComparison? h
      rw [List.flatMap_cons, ih]
      rfl
  | case4 c d rest h ih =>
      rw [List.flatMap_cons, ih]
      rfl

/-- What is written for a text begins with an equal sign only where the text does. -/
theorem head?_of_head?_written {marked : Comparison → Bool} {text : Text}
    (h : ((symbols text).flatMap (Symbol.written marked)).head? = some '=') :
    text.head? = some '=' := by
  fun_cases symbols text with
  | case1 => exact h
  | case2 c => exact h
  | case3 c d rest k hk =>
      obtain ⟨rfl, rfl, -⟩ := eq_of_leadingComparison? hk
      rw [symbols, hk] at h
      dsimp only at h
      rw [List.flatMap_cons, Symbol.written] at h
      split at h
      next => cases h
      next => exact h
  | case4 c d rest hk =>
      rw [symbols, hk] at h
      exact h

theorem eq_first_of_isPrefix_sign {k : Comparison} {c : Char} {text : Text} (h : k.sign <+: c :: text) :
    k.first = c ∧ text.head? = some '=' := by
  obtain ⟨behind, h⟩ := h
  cases h
  exact ⟨rfl, rfl⟩

theorem replace_sign_cons {k : Comparison} {c : Char} (h : k.first ≠ c) (text : Text) :
    Text.replace k.sign k.mark (c :: text) = c :: Text.replace k.sign k.mark text :=
  Text.replace_cons fun hprefix => h (eq_first_of_isPrefix_sign hprefix).1

theorem replace_sign_mark (k j : Comparison) (text : Text) :
    Text.replace k.sign k.mark (j.mark ++ text) = j.mark ++ Text.replace k.sign k.mark text := by
  have hfirst := first_not_mem_mark j k
  simp only [mark, List.mem_cons, not_or] at hfirst
  obtain ⟨hopen, hat, hdigit, hclose, -⟩ := hfirst
  rw [mark_append, replace_sign_cons hopen, replace_sign_cons hat, replace_sign_cons hdigit,
    replace_sign_cons hclose, mark_append]

/-- One operator more is hidden. -/
theorem replace_sign (k : Comparison) (text : Text) :
    Text.replace k.sign k.mark ((symbols text).flatMap (Symbol.written (·.rank < k.rank))) =
      (symbols text).flatMap (Symbol.written (·.rank < k.rank + 1)) := by
  fun_induction symbols text with
  | case1 => rw [List.flatMap_nil, Text.replace, List.flatMap_nil]
  | case2 c =>
      show Text.replace k.sign k.mark [c] = [c]
      rw [Text.replace_cons, Text.replace]
      intro hprefix
      cases (eq_first_of_isPrefix_sign hprefix).2
  | case3 c d rest j h ih =>
      obtain ⟨-, -, hrest⟩ := eq_of_leadingComparison? h
      rw [List.flatMap_cons, List.flatMap_cons, Symbol.written, Symbol.written]
      rcases Nat.lt_trichotomy j.rank k.rank with hlt | heq | hgt
      · rw [if_pos (by simpa using hlt), if_pos (by simp; omega), replace_sign_mark, ih]
      · obtain rfl := rank_injective heq
        have hne : j.sign ≠ [] := List.cons_ne_nil _ _
        rw [if_neg (by simp), if_pos (by simp), Text.replace_append hne, ih]
      · rw [if_neg (by simp; omega), if_neg (by simp; omega)]
        have hfirst : k.first ≠ j.first := by
          intro heq
          rw [first_injective heq] at hgt
          omega
        -- behind the equal sign of an operator that comes later there is no second one
        have hequal : ¬ k.sign <+:
            '=' :: (symbols rest).flatMap (Symbol.written (·.rank < k.rank)) := by
          intro hprefix
          obtain ⟨-, hhead⟩ := eq_first_of_isPrefix_sign hprefix
          rcases hrest with rfl | hrest
          · exact absurd hgt (Nat.not_lt_zero _)
          · exact hrest (head?_of_head?_written hhead)
        rw [Comparison.sign_append, replace_sign_cons hfirst, Text.replace_cons hequal, ih,
          Comparison.sign_append]
  | case4 c d rest h ih =>
      rw [List.flatMap_cons, List.flatMap_cons, Symbol.written, List.singleton_append,
        Symbol.written, List.singleton_append, Text.replace_cons, ih]
      intro hprefix
      obtain ⟨rfl, hhead⟩ := eq_first_of_isPrefix_sign hprefix
      obtain rfl : d = '=' := Option.some.inj (head?_of_head?_written hhead)
      obtain ⟨hne, hrest⟩ := head?_of_leadingComparison?_eq_none h
      -- the two equal signs behind the character have been hidden before
      obtain ⟨behind, rfl⟩ := List.head?_eq_some_iff.mp hrest
      have hpair : leadingComparison? '=' '=' behind = some .equal := rfl
      have hearlier : Comparison.equal.rank < k.rank := by
        cases k with
        | equal => exact absurd rfl hne
        | _ => decide
      rw [symbols, hpair] at hhead
      dsimp only at hhead
      rw [List.flatMap_cons, Symbol.written, if_pos (by simpa using hearlier)] at hhead
      cases hhead

theorem isPrefix_mark_iff {k : Comparison} {c : Char} {text : Text} :
    k.mark <+: c :: text ↔ c = '#' ∧ ['@', k.digit, '#'] <+: text := by
  rw [mark, List.cons_prefix_cons]
  exact and_congr_left' eq_comm

theorem replace_mark_cons {k : Comparison} {c : Char} (h : c ≠ '#') (text : Text) :
    Text.replace k.mark k.sign (c :: text) = c :: Text.replace k.mark k.sign text :=
  Text.replace_cons fun hprefix => h (isPrefix_mark_iff.mp hprefix).1

/-- In front of a text, the mark of an operator begins at a symbol that it can begin at. -/
def Catches (k : Comparison) (behind : Text) : List Symbol → Prop
  | [] => False
  | symbol :: rest =>
      symbol.opens k ∧ ['@', k.digit, '#'] <+:
        rest.flatMap (Symbol.written (k.rank ≤ ·.rank)) ++ behind ∨ Catches k behind rest

/-- A text begins otherwise than a symbol is written, and what is put back later leaves it so. -/
inductive Symbol.Displaced : Symbol → Text → Prop
  | char (k : Comparison) (text : Text) : Displaced (.char '#') (k.first :: text)
  | comparison (j k : Comparison) (text : Text) :
      Displaced (.comparison j) ('#' :: '@' :: j.digit :: k.first :: text)

/-- Where so many operators have been put back, a text goes wrong at one of the symbols. -/
def Diverges (count : Nat) (list : List Symbol) (text : Text) : Prop :=
  ∃ front symbol rest behind, list = front ++ symbol :: rest ∧
    text = front.flatMap (Symbol.written (count ≤ ·.rank)) ++ behind ∧ symbol.Displaced behind

theorem Diverges.cons {count : Nat} {list : List Symbol} {text : Text}
    (h : Diverges count list text) (symbol : Symbol) :
    Diverges count (symbol :: list) (symbol.written (count ≤ ·.rank) ++ text) := by
  obtain ⟨front, other, rest, behind, rfl, rfl, hbehind⟩ := h
  exact ⟨symbol :: front, other, rest, behind, rfl, by
    rw [List.flatMap_cons, List.append_assoc], hbehind⟩

theorem Symbol.Displaced.diverges {count : Nat} {symbol : Symbol} {behind : Text}
    (h : symbol.Displaced behind) (rest : List Symbol) :
    Diverges count (symbol :: rest) behind :=
  ⟨[], symbol, rest, behind, rfl, rfl, h⟩

/-- One operator more is put back at a symbol, unless its mark begins there though it is none. -/
theorem replace_mark_written (k : Comparison) (symbol : Symbol) (text : Text) :
    (¬ (symbol.opens k ∧ ['@', k.digit, '#'] <+: text) ∧
      Text.replace k.mark k.sign (symbol.written (k.rank ≤ ·.rank) ++ text) =
        symbol.written (k.rank + 1 ≤ ·.rank) ++ Text.replace k.mark k.sign text) ∨
    ((symbol.opens k ∧ ['@', k.digit, '#'] <+: text) ∧ symbol.Displaced
      (Text.replace k.mark k.sign (symbol.written (k.rank ≤ ·.rank) ++ text))) := by
  have hput (text : Text) : Text.replace k.mark k.sign (k.mark ++ text) =
      k.first :: '=' :: Text.replace k.mark k.sign text :=
    Text.replace_append (List.cons_ne_nil _ _) text
  have hcaught (h : ['@', k.digit, '#'] <+: text) : ∃ rest, '#' :: text = k.mark ++ rest := by
    obtain ⟨rest, rfl⟩ := h
    exact ⟨rest, rfl⟩
  cases symbol with
  | char c =>
      show (¬ ((c == '#') = true ∧ _) ∧ Text.replace _ _ (c :: text) = c :: _) ∨
        ((c == '#') = true ∧ _) ∧ Symbol.Displaced _ (Text.replace _ _ (c :: text))
      rw [beq_iff_eq]
      by_cases h : c = '#' ∧ ['@', k.digit, '#'] <+: text
      · obtain ⟨rfl, hafter⟩ := h
        obtain ⟨rest, hrest⟩ := hcaught hafter
        rw [hrest, hput]
        exact .inr ⟨⟨rfl, hafter⟩, .char k _⟩
      · exact .inl ⟨h, Text.replace_cons fun hprefix => h (isPrefix_mark_iff.mp hprefix)⟩
  | comparison j =>
      rw [Symbol.written, Symbol.written, Symbol.opens, decide_eq_true_eq]
      rcases Nat.lt_trichotomy j.rank k.rank with hlt | heq | hgt
      · have hfirst : j.first ≠ '#' := by cases j <;> decide
        rw [if_neg (by simpa using hlt), if_neg (by simp; omega), Comparison.sign_append,
          replace_mark_cons hfirst, replace_mark_cons (by decide), Comparison.sign_append]
        exact .inl ⟨fun h => by omega, rfl⟩
      · obtain rfl := rank_injective heq
        rw [if_pos (by simp), if_neg (by simp), hput]
        exact .inl ⟨fun h => by omega, rfl⟩
      · have hdigit : j.digit ≠ '#' := by cases j <;> decide
        have hopen : ¬ k.mark <+: '#' :: '@' :: j.digit :: '#' :: text := by
          rintro ⟨rest, hrest⟩
          simp only [mark, List.cons_append, List.nil_append, List.cons.injEq] at hrest
          rw [digit_injective hrest.2.2.1] at hgt
          omega
        rw [if_pos (by simp; omega), if_pos (by simp; omega), mark_append, Text.replace_cons hopen,
          replace_mark_cons (by decide), replace_mark_cons hdigit]
        by_cases hafter : ['@', k.digit, '#'] <+: text
        · obtain ⟨rest, hrest⟩ := hcaught hafter
          rw [hrest, hput]
          exact .inr ⟨⟨hgt, hafter⟩, .comparison j k _⟩
        · rw [Text.replace_cons fun hprefix => hafter (isPrefix_mark_iff.mp hprefix).2, mark_append]
          exact .inl ⟨fun h => hafter h.2, rfl⟩

/-- One operator more is put back in front of a text, everywhere or up to a place at which its mark
begins though it is none. -/
theorem replace_mark (k : Comparison) (behind : Text) (list : List Symbol) :
    (¬ Catches k behind list ∧
      Text.replace k.mark k.sign (list.flatMap (Symbol.written (k.rank ≤ ·.rank)) ++ behind) =
        list.flatMap (Symbol.written (k.rank + 1 ≤ ·.rank)) ++
          Text.replace k.mark k.sign behind) ∨
    (Catches k behind list ∧ Diverges (k.rank + 1) list
      (Text.replace k.mark k.sign
        (list.flatMap (Symbol.written (k.rank ≤ ·.rank)) ++ behind))) := by
  induction list with
  | nil => exact .inl ⟨id, rfl⟩
  | cons symbol list ih =>
      rw [List.flatMap_cons, List.append_assoc]
      rcases replace_mark_written k symbol
        (list.flatMap (Symbol.written (k.rank ≤ ·.rank)) ++ behind) with
        ⟨hopens, hreplace⟩ | ⟨hopens, hdisplaced⟩
      · rw [hreplace]
        rcases ih with ⟨hcatches, hrest⟩ | ⟨hcatches, hdiverges⟩
        · refine .inl ⟨fun h => h.elim hopens hcatches, ?_⟩
          rw [hrest, List.flatMap_cons, List.append_assoc]
        · exact .inr ⟨.inr hcatches, hdiverges.cons symbol⟩
      · exact .inr ⟨.inl hopens, hdisplaced.diverges list⟩

theorem Symbol.Displaced.replace_mark {symbol : Symbol} {text : Text} (h : symbol.Displaced text)
    (k : Comparison) : symbol.Displaced (Text.replace k.mark k.sign text) := by
  cases h with
  | char j text =>
      have hfirst : j.first ≠ '#' := by cases j <;> decide
      rw [replace_mark_cons hfirst]
      exact .char j _
  | comparison i j text =>
      have hdigit : i.digit ≠ '#' := by cases i <;> decide
      have hfirst : j.first ≠ '#' := by cases j <;> decide
      have hopen : ¬ k.mark <+: '#' :: '@' :: i.digit :: j.first :: text := by
        rintro ⟨rest, hrest⟩
        simp only [mark, List.cons_append, List.nil_append, List.cons.injEq] at hrest
        exact hfirst hrest.2.2.2.1.symm
      rw [Text.replace_cons hopen, replace_mark_cons (by decide), replace_mark_cons hdigit,
        replace_mark_cons hfirst]
      exact .comparison i j _

/-- What has gone wrong does not come right when one operator more is put back. -/
theorem Diverges.replace_mark {k : Comparison} {list : List Symbol} {text : Text}
    (h : Diverges k.rank list text) :
    Diverges (k.rank + 1) list (Text.replace k.mark k.sign text) := by
  obtain ⟨front, symbol, rest, behind, rfl, rfl, hbehind⟩ := h
  rcases Script.replace_mark k behind front with ⟨-, hreplace⟩ | ⟨-, hdiverges⟩
  · rw [hreplace]
    exact ⟨front, symbol, rest, _, rfl, rfl, hbehind.replace_mark k⟩
  · obtain ⟨front, other, more, behind, rfl, htext, hbehind⟩ := hdiverges
    exact ⟨front, other, more ++ symbol :: rest, behind, by simp, htext, hbehind⟩

/-- A character of which neither operators nor marks are made is written for itself only. -/
theorem exists_cons_char {marked : Comparison → Bool} {c : Char} {wanted : Text}
    {list : List Symbol} (hmark : c ≠ '#') (hfirst : ∀ k : Comparison, c ≠ k.first)
    (h : c :: wanted <+: list.flatMap (Symbol.written marked)) :
    ∃ rest, list = .char c :: rest ∧ wanted <+: rest.flatMap (Symbol.written marked) := by
  cases list with
  | nil => cases List.prefix_nil.mp h
  | cons symbol rest =>
      rw [List.flatMap_cons] at h
      cases symbol with
      | char d =>
          obtain ⟨rfl, hwanted⟩ := List.cons_prefix_cons.mp h
          exact ⟨rest, rfl, hwanted⟩
      | comparison j =>
          rw [Symbol.written] at h
          split at h
          next => exact absurd (List.cons_prefix_cons.mp h).1 hmark
          next => exact absurd (List.cons_prefix_cons.mp h).1 (hfirst j)

theorem closes_iff {k : Comparison} {list : List Symbol} :
    ['#'] <+: list.flatMap (Symbol.written (k.rank ≤ ·.rank)) ↔
      ∃ after rest, list = after :: rest ∧ after.closes k := by
  cases list with
  | nil => simp
  | cons symbol rest =>
      have hhead : ['#'] <+: symbol.written (k.rank ≤ ·.rank) ++
          rest.flatMap (Symbol.written (k.rank ≤ ·.rank)) ↔ symbol.closes k := by
        cases symbol with
        | char c =>
            show ['#'] <+: c :: _ ↔ (c == '#') = true
            rw [List.cons_prefix_cons, beq_iff_eq, and_iff_left List.nil_prefix, eq_comm]
        | comparison j =>
            have hfirst : '#' ≠ j.first := by cases j <;> decide
            by_cases hle : k.rank ≤ j.rank <;>
              simp [Symbol.written, Symbol.closes, List.cons_prefix_cons, hle, mark, sign, hfirst]
      rw [List.flatMap_cons, hhead]
      simp

/-- The middle of a mark is written for its characters only. -/
theorem isPrefix_middle_iff {k : Comparison} {list : List Symbol} :
    ['@', k.digit, '#'] <+: list.flatMap (Symbol.written (k.rank ≤ ·.rank)) ↔
      ∃ after rest, list = .char '@' :: .char k.digit :: after :: rest ∧ after.closes k := by
  constructor
  · intro h
    obtain ⟨_, rfl, hdigit⟩ := exists_cons_char (by decide) (fun j => by cases j <;> decide) h
    obtain ⟨_, rfl, hclose⟩ := exists_cons_char (by cases k <;> decide)
      (fun j => by cases k <;> cases j <;> decide) hdigit
    obtain ⟨after, rest, rfl, hafter⟩ := closes_iff.mp hclose
    exact ⟨after, rest, rfl, hafter⟩
  · rintro ⟨after, rest, rfl, hafter⟩
    have hclose := closes_iff.mpr ⟨after, rest, rfl, hafter⟩
    exact List.cons_prefix_cons.mpr ⟨rfl, List.cons_prefix_cons.mpr ⟨rfl, hclose⟩⟩

theorem catches_nil_iff {k : Comparison} {list : List Symbol} :
    Catches k [] list ↔ ∃ before after : Symbol,
      [before, .char '@', .char k.digit, after] <:+: list ∧ before.opens k ∧ after.closes k := by
  induction list with
  | nil => simp [Catches]
  | cons symbol list ih =>
      rw [Catches, List.append_nil, ih, isPrefix_middle_iff]
      constructor
      · rintro (⟨hopens, after, rest, rfl, hcloses⟩ | ⟨before, after, hinfix, hends⟩)
        · exact ⟨symbol, after, ⟨[], rest, rfl⟩, hopens, hcloses⟩
        · exact ⟨before, after, hinfix.trans (List.suffix_cons symbol list).isInfix, hends⟩
      · rintro ⟨before, after, hinfix, hopens, hcloses⟩
        rcases List.infix_cons_iff.mp hinfix with ⟨rest, hrest⟩ | hinfix
        · cases hrest
          exact .inl ⟨hopens, after, rest, rfl, hcloses⟩
        · exact .inr ⟨before, after, hinfix, hopens, hcloses⟩

theorem formsMark_iff {list : List Symbol} : FormsMark list ↔ ∃ k, Catches k [] list :=
  exists_congr fun _ => catches_nil_iff.symm

instance decidableCatches (k : Comparison) (behind : Text) :
    (list : List Symbol) → Decidable (Catches k behind list)
  | [] => .isFalse id
  | _ :: rest =>
      have := decidableCatches k behind rest
      inferInstanceAs (Decidable (_ ∧ _ ∨ _))

instance (list : List Symbol) : Decidable (FormsMark list) :=
  decidable_of_iff (∃ k ∈ Comparison.all, Catches k [] list) <| by
    have hall (k : Comparison) : k ∈ Comparison.all := by cases k <;> decide
    rw [formsMark_iff]
    exact ⟨fun ⟨k, _, hk⟩ => ⟨k, hk⟩, fun ⟨k, hk⟩ => ⟨k, hall k, hk⟩⟩

/-- The text of symbols with so many of the operators put back, or one that has gone wrong. -/
def Restored (count : Nat) (list : List Symbol) (text : Text) : Prop :=
  (∀ k : Comparison, k.rank < count → ¬ Catches k [] list) ∧
      text = list.flatMap (Symbol.written (count ≤ ·.rank)) ∨
    FormsMark list ∧ Diverges count list text

theorem Restored.replace_mark {k : Comparison} {list : List Symbol} {text : Text}
    (h : Restored k.rank list text) :
    Restored (k.rank + 1) list (Text.replace k.mark k.sign text) := by
  rcases h with ⟨hearlier, rfl⟩ | ⟨hforms, hdiverges⟩
  · have hstep := Script.replace_mark k [] list
    have hnil : Text.replace k.mark k.sign [] = [] := by rw [Text.replace]
    rw [hnil, List.append_nil, List.append_nil] at hstep
    rcases hstep with ⟨hcatches, hreplace⟩ | ⟨hcatches, hdiverges⟩
    · refine .inl ⟨fun j hj => ?_, hreplace⟩
      rcases Nat.lt_succ_iff_lt_or_eq.mp hj with hlt | heq
      · exact hearlier j hlt
      · rwa [rank_injective heq]
    · exact .inr ⟨formsMark_iff.mpr ⟨k, hcatches⟩, hdiverges⟩
  · exact .inr ⟨hforms, hdiverges.replace_mark⟩

/-- The characters that operators and the ends of marks are made of. -/
def signs : Text := ['#', '=', '!', '>', '<']

/-- Two texts go apart at a character that operators and the ends of marks are made of. -/
def Parts (text other : Text) : Prop :=
  ∃ front c d rest rest', text = front ++ c :: rest ∧ other = front ++ d :: rest' ∧ c ≠ d ∧
    c ∈ signs ∧ d ∈ signs

/-- What comes of a text whose operators are hidden and put back. -/
theorem showComparisons_written (list : List Symbol) :
    ¬ FormsMark list ∧ showComparisons (list.flatMap (Symbol.written fun _ => true)) =
        list.flatMap (Symbol.written fun _ => false) ∨
      FormsMark list ∧ Parts (list.flatMap (Symbol.written fun _ => false))
        (showComparisons (list.flatMap (Symbol.written fun _ => true))) := by
  have hall : (fun j : Comparison => decide (0 ≤ j.rank)) = fun _ => true := by
    funext j
    exact decide_eq_true (Nat.zero_le _)
  have hnone : (fun j : Comparison => decide (4 ≤ j.rank)) = fun _ => false := by
    funext j
    cases j <;> rfl
  have hstart : Restored equal.rank list (list.flatMap (Symbol.written fun _ => true)) := by
    rw [← hall]
    exact .inl ⟨fun k hk => absurd hk (Nat.not_lt_zero _), rfl⟩
  have hrestored : Restored 4 list
      (showComparisons (list.flatMap (Symbol.written fun _ => true))) :=
    have hequal : Restored notEqual.rank list _ := hstart.replace_mark
    have hnotEqual : Restored greaterEqual.rank list _ := hequal.replace_mark
    have hgreaterEqual : Restored lesserEqual.rank list _ := hnotEqual.replace_mark
    hgreaterEqual.replace_mark
  have hrank (k : Comparison) : k.rank < 4 := by cases k <;> decide
  rcases hrestored with ⟨hcatches, htext⟩ | ⟨hforms, hdiverges⟩
  · refine .inl ⟨fun hforms => ?_, by rw [htext, hnone]⟩
    obtain ⟨k, hk⟩ := formsMark_iff.mp hforms
    exact hcatches k (hrank k) hk
  · obtain ⟨front, symbol, rest, behind, rfl, htext, hbehind⟩ := hdiverges
    refine .inr ⟨hforms, ?_⟩
    rw [htext, hnone, List.flatMap_append, List.flatMap_cons]
    cases hbehind with
    | char k text =>
        exact ⟨_, '#', k.first, _, _, rfl, rfl, by cases k <;> decide, by decide,
          by cases k <;> decide⟩
    | comparison j k text =>
        exact ⟨_, j.first, '#', _, _, rfl, rfl, by cases j <;> decide, by cases j <;> decide,
          by decide⟩

/-- Hiding the operators writes a mark for each of them. -/
theorem hideComparisons_eq (text : Text) :
    hideComparisons text = (symbols text).flatMap (Symbol.written fun _ => true) := by
  have hall : (fun j : Comparison => decide (j.rank < 4)) = fun _ => true := by
    funext j
    cases j <;> rfl
  have hstart : text = (symbols text).flatMap (Symbol.written (·.rank < equal.rank)) := by
    have hnone : (fun j : Comparison => decide (j.rank < 0)) = fun _ => false := by
      funext j
      exact decide_eq_false (Nat.not_lt_zero _)
    have hrank : equal.rank = 0 := rfl
    rw [hrank, hnone, flatMap_written_symbols]
  have hstep (k : Comparison) {current : Text}
      (h : current = (symbols text).flatMap (Symbol.written (·.rank < k.rank))) :
      Text.replace k.sign k.mark current =
        (symbols text).flatMap (Symbol.written (·.rank < k.rank + 1)) := by
    rw [h, replace_sign]
  rw [← hall, hideComparisons, hidden_eq]
  exact hstep lesserEqual (hstep greaterEqual (hstep notEqual (hstep equal hstart)))

end Symbols

/-- The directories of an assignment, the slash behind them and its name make a text. -/
def Assignment.Writes (assignment : Assignment) (target : Text) : Prop :=
  match assignment.folder with
  | none => target = assignment.name
  | some folder =>
      ∃ slash, (slash = '/' ∨ slash = '\\') ∧ target = folder ++ slash :: assignment.name

/-- One slash for both. -/
def slashed (c : Char) : Char :=
  if c = '\\' then '/' else c

theorem Assignment.Writes.map_slashed_eq {assignment : Assignment} {target other : Text}
    (htarget : assignment.Writes target) (hother : assignment.Writes other) :
    target.map slashed = other.map slashed := by
  obtain ⟨folder, name, expression⟩ := assignment
  cases folder with
  | none => exact congrArg (List.map slashed) (htarget.trans hother.symm)
  | some folder =>
      have hslash {slash : Char} (h : slash = '/' ∨ slash = '\\') : slashed slash = '/' := by
        rcases h with rfl | rfl <;> rfl
      obtain ⟨slash, hone, rfl⟩ := htarget
      obtain ⟨slash', hanother, rfl⟩ := hother
      simp only [List.map_append, List.map_cons, hslash hone, hslash hanother]

/-- Both slashes divide. -/
def isSlash (c : Char) : Bool := c == '/' || c == '\\'

theorem writes_splitFolder (target expression : Text) :
    (Assignment.mk (splitFolder target).1 (splitFolder target).2 expression).Writes target := by
  unfold splitFolder
  dsimp only
  split
  next hany =>
    obtain ⟨slash, hmem, hslash⟩ := List.any_eq_true.mp hany
    -- the target from its end: the name, the last slash, and the directories
    obtain ⟨c, hfound⟩ : ∃ c, target.reverse.find? isSlash = some c :=
      Option.isSome_iff_exists.mp
        (List.find?_isSome.mpr ⟨slash, List.mem_reverse.mpr hmem, hslash⟩)
    obtain ⟨hc, name, folder, hreverse, hname⟩ := List.find?_eq_some_iff_append.mp hfound
    have htarget : target = folder.reverse ++ c :: name.reverse := by
      rw [← List.reverse_reverse target, hreverse]
      simp
    have hlast : (target.reverse.takeWhile fun c => !isSlash c) = name := by
      rw [hreverse]
      exact congrArg Prod.fst (span_append_cons hname (by simp [hc]) folder)
    show Assignment.Writes ⟨some (target.take (target.length -
      (target.reverse.takeWhile fun c => !isSlash c).reverse.length - 1)),
      (target.reverse.takeWhile fun c => !isSlash c).reverse, expression⟩ target
    rw [hlast]
    have hfolder : target.take (target.length - name.reverse.length - 1) = folder.reverse := by
      have hlength : target.length - name.reverse.length - 1 = folder.reverse.length := by
        rw [htarget, List.length_append, List.length_cons]
        omega
      rw [hlength, htarget, List.take_left]
    rw [hfolder]
    exact ⟨c, by simpa [isSlash] using hc, htarget⟩
  next => rfl

section Halves

variable {left right text : Text} {list : List Symbol}

/-- What is written for a text with marks has the equal signs that are left over. -/
theorem eq_char_of_equal_mem {symbol : Symbol} (h : '=' ∈ symbol.written fun _ => true) :
    symbol = .char '=' := by
  cases symbol with
  | char c => exact congrArg Symbol.char (List.mem_singleton.mp h).symm
  | comparison k => exact absurd h (by cases k <;> decide)

/-- An assignment is read from the two sides of an equal sign that is left over. -/
theorem exists_symbols_of_ofText {assignment : Assignment}
    (h : Assignment.ofText text = .ok assignment) :
    ∃ left right : List Symbol, symbols text = left ++ .char '=' :: right ∧
      assignment.expression =
        Text.trim (showComparisons (right.flatMap (Symbol.written fun _ => true))) ∧
      assignment.Writes
        (Text.trim (showComparisons (left.flatMap (Symbol.written fun _ => true)))) := by
  unfold Assignment.ofText at h
  split at h
  next => cases h
  next =>
    dsimp only at h
    split at h
    next => cases h
    next hcount =>
      have hcount : (hideComparisons text).count '=' = 1 := by simpa using hcount
      have hmem : '=' ∈ hideComparisons text := List.count_pos_iff.mp (by omega)
      rw [hideComparisons_eq] at hmem h
      obtain ⟨symbol, hsymbol, hequal⟩ := List.mem_flatMap.mp hmem
      rw [eq_char_of_equal_mem hequal] at hsymbol
      obtain ⟨left, right, hlist, hleft⟩ := List.eq_append_cons_of_mem hsymbol
      have hspan : Text.span (· != '=') ((symbols text).flatMap (Symbol.written fun _ => true)) =
          (left.flatMap (Symbol.written fun _ => true),
            '=' :: right.flatMap (Symbol.written fun _ => true)) := by
        rw [hlist, List.flatMap_append, List.flatMap_cons]
        refine span_append_cons (fun c hc => ?_) rfl _
        obtain ⟨other, hother, hc⟩ := List.mem_flatMap.mp hc
        rw [bne_iff_ne]
        rintro rfl
        exact hleft (eq_char_of_equal_mem hc ▸ hother)
      rw [hspan, List.drop_one, List.tail_cons] at h
      refine ⟨left, right, hlist, ?_⟩
      split at h
      next => cases h
      next =>
        split at h
        next => cases h
        next =>
          split at h
          next => cases h
          next =>
            cases h
            exact ⟨rfl, writes_splitFolder _ _⟩

/-- Around an equal sign no mark is formed. -/
theorem formsMark_append_cons_iff {left right : List Symbol} :
    FormsMark (left ++ .char '=' :: right) ↔ FormsMark left ∨ FormsMark right := by
  constructor
  · rintro ⟨k, before, after, ⟨front, rest, hlist⟩, hopens, hcloses⟩
    have hnone : Symbol.char '=' ∉ [before, .char '@', .char k.digit, after] := by
      have hbefore : Symbol.char '=' ≠ before := by rintro rfl; cases hopens
      have hafter : Symbol.char '=' ≠ after := by rintro rfl; cases hcloses
      have hdigit : '=' ≠ k.digit := by cases k <;> decide
      simp [hbefore, hafter, hdigit]
    generalize hmiddle : [before, Symbol.char '@', Symbol.char k.digit, after] = middle at *
    have hforms {list : List Symbol} (h : middle <:+: list) : FormsMark list :=
      ⟨k, before, after, hmiddle ▸ h, hopens, hcloses⟩
    rw [List.append_assoc] at hlist
    rcases List.append_eq_append_iff.mp hlist with ⟨more, rfl, hmore⟩ | ⟨more, rfl, hmore⟩
    · rcases List.append_eq_append_iff.mp hmore with ⟨more', rfl, -⟩ | ⟨more', rfl, hmore'⟩
      · exact .inl (hforms ⟨front, more', List.append_assoc ..⟩)
      · cases more' with
        | nil => exact .inl (hforms ⟨front, [], by simp⟩)
        | cons symbol more' =>
            cases hmore'
            exact absurd (List.mem_append_right _ List.mem_cons_self) hnone
    · cases more with
      | nil =>
          obtain _ | ⟨symbol, middle⟩ := middle
          · cases hmiddle
          · cases hmore
            exact absurd List.mem_cons_self hnone
      | cons symbol more =>
          cases hmore
          exact .inr (hforms ⟨more, rest, List.append_assoc ..⟩)
  · rintro (⟨k, before, after, hinfix, hends⟩ | ⟨k, before, after, hinfix, hends⟩)
    · exact ⟨k, before, after, hinfix.trans (List.prefix_append _ _).isInfix, hends⟩
    · exact ⟨k, before, after, hinfix.trans ((List.suffix_cons _ _).trans
        (List.suffix_append _ _)).isInfix, hends⟩

theorem length_trim_lt {front : Text} {c : Char} (h : left <+: front)
    (hc : Text.isBlank c = false) (rest : Text) :
    (Text.trim left).length < (Text.trim (front ++ c :: rest)).length := by
  obtain ⟨rest', htrim⟩ := exists_trim_append_cons front hc rest
  have hle := length_trim_le_of_prefix h
  rw [htrim, List.length_append, List.length_cons]
  omega

/-- Which of the equal signs divides a text is known from what is on its left. -/
theorem eq_of_trim_eq {other right' : Text} (htext : left ++ '=' :: right = other ++ '=' :: right')
    (htrim : (Text.trim left).map slashed = (Text.trim other).map slashed) : left = other := by
  have hlength : (Text.trim left).length = (Text.trim other).length := by
    simpa using congrArg List.length htrim
  have hblank : Text.isBlank '=' = false := by decide
  rcases List.append_eq_append_iff.mp htext with ⟨more, rfl, hmore⟩ | ⟨more, rfl, hmore⟩
  · cases more with
    | nil => exact (List.append_nil left).symm
    | cons c more =>
        cases hmore
        have hlt := length_trim_lt (List.prefix_refl left) hblank more
        omega
  · cases more with
    | nil => exact List.append_nil other
    | cons c more =>
        cases hmore
        have hlt := length_trim_lt (List.prefix_refl other) hblank more
        omega

namespace Parts

theorem spec_of_mem_signs {c : Char} (h : c ∈ signs) : Text.isBlank c = false ∧ slashed c = c := by
  simp only [signs, List.mem_cons, List.not_mem_nil, or_false] at h
  rcases h with rfl | rfl | rfl | rfl | rfl <;> decide

theorem trim_ne (h : Parts text other) : Text.trim text ≠ Text.trim other := by
  obtain ⟨front, c, d, rest, rest', rfl, rfl, hne, hc, hd⟩ := h
  obtain ⟨_, htext⟩ := exists_trim_append_cons front (spec_of_mem_signs hc).1 rest
  obtain ⟨_, hother⟩ := exists_trim_append_cons front (spec_of_mem_signs hd).1 rest'
  rw [htext, hother]
  intro heq
  exact hne (List.cons.inj (List.append_cancel_left heq)).1

/-- A side that goes wrong is no side of the text, whichever equal sign divides it. -/
theorem trim_map_ne (h : Parts text other) {right' : Text}
    (htext : text ++ '=' :: right = left ++ '=' :: right') :
    (Text.trim left).map slashed ≠ (Text.trim other).map slashed := by
  obtain ⟨front, c, d, rest, rest', rfl, rfl, hne, hc, hd⟩ := h
  obtain ⟨hblank, hslash⟩ := spec_of_mem_signs hc
  obtain ⟨hblank', hslash'⟩ := spec_of_mem_signs hd
  intro heq
  have hsides : left <+: front ∨ ∃ more, left = front ++ c :: more := by
    rw [List.append_assoc] at htext
    rcases List.append_eq_append_iff.mp htext with ⟨more, rfl, hmore⟩ | ⟨more, rfl, -⟩
    · cases more with
      | nil => exact .inl (by rw [List.append_nil])
      | cons c' more =>
          obtain rfl := (List.cons.inj hmore).1
          exact .inr ⟨more, rfl⟩
    · exact .inl (List.prefix_append _ _)
  rcases hsides with hprefix | ⟨more, rfl⟩
  · have hlength : (Text.trim left).length = (Text.trim (front ++ d :: rest')).length := by
      simpa using congrArg List.length heq
    have hlt := length_trim_lt hprefix hblank' rest'
    omega
  · obtain ⟨_, hleft⟩ := exists_trim_append_cons front hblank more
    obtain ⟨_, hother⟩ := exists_trim_append_cons front hblank' rest'
    rw [hleft, hother, List.map_append, List.map_append, List.map_cons, List.map_cons, hslash,
      hslash'] at heq
    exact hne (List.cons.inj (List.append_cancel_left heq)).1

end Parts

end Halves

/-- An assignment is made of the two sides of an equal sign in its text, with the blanks at their
ends cut off and nothing else changed, unless a mark is formed that stands for no operator. Then it
is made of the sides of no equal sign. -/
theorem Assignment.exists_sides_iff {text : Text} {assignment : Assignment}
    (h : Assignment.ofText text = .ok assignment) :
    (∃ left right, text = left ++ '=' :: right ∧ assignment.expression = Text.trim right ∧
      assignment.Writes (Text.trim left)) ↔ ¬ FormsMark (symbols text) := by
  obtain ⟨left, right, hlist, hexpression, hwrites⟩ := exists_symbols_of_ofText h
  have htext := flatMap_written_symbols text
  rw [hlist, List.flatMap_append, List.flatMap_cons, Symbol.written, List.singleton_append] at htext
  rw [hlist, formsMark_append_cons_iff, not_or]
  constructor
  · rintro ⟨left', right', hsides, hexpression', hwrites'⟩
    have hmap := hwrites'.map_slashed_eq hwrites
    have htext' := htext.trans hsides
    rcases showComparisons_written left with ⟨hleft, hshown⟩ | ⟨-, hparts⟩
    · refine ⟨hleft, fun hright => ?_⟩
      rw [hshown] at hmap
      obtain rfl := eq_of_trim_eq htext' hmap.symm
      obtain rfl := (List.cons.inj (List.append_cancel_left htext')).2
      rcases showComparisons_written right with ⟨hnone, -⟩ | ⟨-, hparts⟩
      · exact hnone hright
      · exact hparts.trim_ne (hexpression'.symm.trans hexpression)
    · exact absurd hmap (hparts.trim_map_ne htext')
  · rintro ⟨hleft, hright⟩
    rcases showComparisons_written left with ⟨-, hshownLeft⟩ | ⟨hforms, -⟩
    · rcases showComparisons_written right with ⟨-, hshownRight⟩ | ⟨hforms, -⟩
      · rw [hshownLeft] at hwrites
        rw [hshownRight] at hexpression
        exact ⟨_, _, htext.symm, hexpression, hwrites⟩
      · exact absurd hforms hright
    · exact absurd hforms hleft

/-- Parts of marks between operators, none of which becomes a mark. -/
def crowdedText : Text := "out\\C = if(A>=1&&B!=2,#@2==3,4!=@2#)".toList

theorem exists_sides_crowdedText :
    Assignment.ofText crowdedText = .ok ⟨some "out".toList, ['C'],
        "if(A>=1&&B!=2,#@2==3,4!=@2#)".toList⟩ ∧
      ∃ left right, crowdedText = left ++ '=' :: right ∧
        "if(A>=1&&B!=2,#@2==3,4!=@2#)".toList = Text.trim right ∧
        Assignment.Writes ⟨some "out".toList, ['C'], "if(A>=1&&B!=2,#@2==3,4!=@2#)".toList⟩
          (Text.trim left) := by
  have hread : Assignment.ofText crowdedText = .ok ⟨some "out".toList, ['C'],
      "if(A>=1&&B!=2,#@2==3,4!=@2#)".toList⟩ := by decide +kernel
  exact ⟨hread, (Assignment.exists_sides_iff hread).mpr (by decide +kernel)⟩

/-- The beginning of a mark in front of an operator. -/
def crossedText : Text := "A = #@1==2".toList

/-- The operator is put back in front of the sign and the digit that stood before it. -/
theorem crossedText_loses_sides :
    Assignment.ofText crossedText = .ok ⟨none, ['A'], "==@1#2".toList⟩ ∧
      ¬ ∃ left right, crossedText = left ++ '=' :: right ∧ "==@1#2".toList = Text.trim right ∧
        Assignment.Writes ⟨none, ['A'], "==@1#2".toList⟩ (Text.trim left) := by
  have hright : ∀ n ≤ 10, "==@1#2".toList ≠ Text.trim (crossedText.drop (n + 1)) := by decide
  refine ⟨by decide +kernel, ?_⟩
  rintro ⟨left, right, htext, hexpression, -⟩
  have hlength : left.length ≤ 10 := by
    have hle := congrArg List.length htext
    have htotal : crossedText.length = 10 := by decide
    rw [htotal, List.length_append, List.length_cons] at hle
    omega
  have hdrop : crossedText.drop (left.length + 1) = right := by
    rw [htext, ← List.drop_drop, List.drop_left]
    rfl
  exact hright left.length hlength (hdrop.symm ▸ hexpression)

end Script

end MapAlgebra
