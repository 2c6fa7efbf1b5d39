import Mathlib.Order.Bounds.Defs
import MapAlgebra.Proofs.Moves

/-!
# How deep expressions are nested

A text is as high as the most parentheses that are open at a place of it, whatever they belong to.
What it spells is nested as deep, groups and calls alike, and arguments of a call stand beside each
other. What is read of a text, whole or up to a break, is nested no deeper.
-/

namespace MapAlgebra.Expression

/-- How many more parentheses a text opens than it closes. -/
def balance (text : Text) : Int :=
  text.count '(' - text.count ')'

/-- How many parentheses are open at most at a place of a text. -/
def height : Text → Int
  | [] => 0
  | c :: rest => max 0 (balance [c] + height rest)

section Heights

variable {text front behind : Text}

theorem balance_append (front behind : Text) :
    balance (front ++ behind) = balance front + balance behind := by
  unfold balance
  rw [List.count_append, List.count_append]
  omega

theorem height_cons (c : Char) (rest : Text) :
    height (c :: rest) = max 0 (balance [c] + height rest) := rfl

theorem height_nonneg (text : Text) : 0 ≤ height text := by
  cases text with
  | nil => exact Int.le_refl 0
  | cons c rest => exact Int.le_max_left ..

theorem height_append (front behind : Text) :
    height (front ++ behind) = max (height front) (balance front + height behind) := by
  induction front with
  | nil =>
      have hnil : height [] = 0 ∧ balance [] = 0 := ⟨rfl, rfl⟩
      have hnonneg := height_nonneg behind
      rw [List.nil_append, hnil.1, hnil.2]
      omega
  | cons c front ih =>
      have hbalance := balance_append [c] front
      rw [List.singleton_append] at hbalance
      rw [List.cons_append, height_cons, height_cons, ih, hbalance]
      omega

/-- The height of a text is the greatest balance that it has up to a place. -/
theorem isGreatest_height (text : Text) :
    IsGreatest {n | ∃ front, front <+: text ∧ balance front = n} (height text) := by
  constructor
  · induction text with
    | nil => exact ⟨[], List.nil_prefix, rfl⟩
    | cons c rest ih =>
        obtain ⟨front, hfront, hbalance⟩ := ih
        rw [height_cons]
        rcases Int.le_total (balance [c] + height rest) 0 with hlow | hhigh
        · exact ⟨[], List.nil_prefix, (Int.max_eq_left hlow).symm⟩
        · refine ⟨c :: front, List.cons_prefix_cons.mpr ⟨rfl, hfront⟩, ?_⟩
          rw [Int.max_eq_right hhigh, ← hbalance]
          exact balance_append [c] front
  · rintro n ⟨front, ⟨behind, rfl⟩, rfl⟩
    rw [height_append]
    have hnonneg := height_nonneg behind
    omega

/-- A text without parentheses. -/
def IsFlat (text : Text) : Prop :=
  ∀ c ∈ text, c ≠ '(' ∧ c ≠ ')'

theorem IsFlat.append (hfront : IsFlat front) (hbehind : IsFlat behind) :
    IsFlat (front ++ behind) :=
  fun c hc => (List.mem_append.mp hc).elim (hfront c) (hbehind c)

theorem IsFlat.balance_eq (h : IsFlat text) : balance text = 0 := by
  have hopen : text.count '(' = 0 := List.count_eq_zero.mpr fun hmem => (h _ hmem).1 rfl
  have hclose : text.count ')' = 0 := List.count_eq_zero.mpr fun hmem => (h _ hmem).2 rfl
  unfold balance
  omega

theorem IsFlat.height_eq (h : IsFlat text) : height text = 0 := by
  induction text with
  | nil => rfl
  | cons c rest ih =>
      have hc : IsFlat [c] := fun d hd => h d (List.mem_cons.mpr (.inl (List.mem_singleton.mp hd)))
      rw [height_cons, hc.balance_eq, ih fun d hd => h d (List.mem_cons_of_mem _ hd)]
      rfl

theorem isFlat_of_all (h : (text.all fun c => c != '(' && c != ')') = true) : IsFlat text := by
  intro c hc
  have hneither := List.all_eq_true.mp h c hc
  simpa using hneither

theorem isFlat_of_plain (h : ∀ c ∈ text, isPlain c) : IsFlat text := by
  intro c hc
  have hplain := h c hc
  constructor
  · rintro rfl
    exact absurd hplain (by decide)
  · rintro rfl
    exact absurd hplain (by decide)

theorem isFlat_minus (negated : Bool) : IsFlat (minus negated) :=
  isFlat_of_all (by cases negated <;> decide)

theorem IsBody.isFlat (h : IsBody text) : IsFlat text := by
  cases h with
  | plain h => exact isFlat_of_plain h
  | @scientific mantissa exponent sign hmantissa hsign hexponent =>
      have hsign : IsFlat [sign] := isFlat_of_all (by rcases hsign with rfl | rfl <;> decide)
      exact (isFlat_of_plain hmantissa.plain).append (hsign.append (isFlat_of_plain hexponent))

theorem StartsToken.isFlat (h : StartsToken text) : IsFlat text := by
  obtain ⟨negated, body, hbody, rfl⟩ := h
  exact (isFlat_minus negated).append hbody.isFlat

theorem isFlat_sign (op : Operator) : IsFlat op.sign :=
  isFlat_of_all (by cases op <;> decide)

theorem isFlat_comma : IsFlat [','] :=
  isFlat_of_all (by decide)

/-- A text that closes all it opens, nested so deep. -/
structure IsNested (text : Text) (nesting : Nat) : Prop where
  balance_eq : balance text = 0
  height_eq : height text = nesting

theorem IsFlat.isNested (h : IsFlat text) : IsNested text 0 :=
  ⟨h.balance_eq, h.height_eq⟩

theorem IsNested.append {outer inner : Nat} (hfront : IsNested front outer)
    (hbehind : IsNested behind inner) : IsNested (front ++ behind) (max outer inner) where
  balance_eq := by
    rw [balance_append, hfront.balance_eq, hbehind.balance_eq]
    rfl
  height_eq := by
    rw [height_append, hfront.balance_eq, hfront.height_eq, hbehind.height_eq]
    omega

/-- Beside a text without parentheses a text is nested as before. -/
theorem IsNested.prepend {nesting : Nat} (h : IsNested behind nesting) (hfront : IsFlat front) :
    IsNested (front ++ behind) nesting :=
  Nat.zero_max nesting ▸ hfront.isNested.append h

/-- Parentheses are one level. -/
theorem IsNested.enclosed {nesting : Nat} (h : IsNested text nesting) :
    IsNested ('(' :: (text ++ [')'])) (nesting + 1) := by
  have hopen : balance ['('] = 1 := rfl
  have hclose : balance [')'] = -1 ∧ height [')'] = 0 := ⟨rfl, rfl⟩
  have hinner : balance (text ++ [')']) = -1 ∧ height (text ++ [')']) = nesting := by
    rw [balance_append, height_append, h.balance_eq, h.height_eq]
    omega
  have houter := balance_append ['('] (text ++ [')'])
  rw [List.singleton_append] at houter
  refine ⟨by omega, ?_⟩
  rw [height_cons]
  omega

end Heights

-- By induction on the derivation: only groups and calls spell parentheses, a pair each.
mutual

theorem Chain.Spells.isNested : ∀ {chain : Chain} {text : Text}, chain.Spells text →
    IsNested text chain.nesting
  | .last _, _, .last h => h.isNested
  | .join _ op _, _, .join hterm _ hrest =>
      hterm.isNested.append (hrest.isNested.prepend (isFlat_sign op))

theorem Term.Spells.isNested : ∀ {term : Term} {text : Text}, term.Spells text →
    IsNested text term.nesting
  | .token _, _, .token h => h.2.isFlat.isNested
  | .group negated _, _, .group h => h.isNested.enclosed.prepend (isFlat_minus negated)
  | .call negated _ _, _, .call _ hname h =>
      (h.isNested.enclosed.prepend hname.isFlat).prepend (isFlat_minus negated)

theorem Arguments.Spells.isNested : ∀ {arguments : Arguments} {text : Text},
    arguments.Spells text → IsNested text arguments.nesting
  | .more chain .none, _, .last h => by
      have hlast : (Arguments.more chain .none).nesting = chain.nesting := Nat.max_zero _
      exact hlast ▸ h.isNested
  | .more _ _, _, .more h hrest =>
      h.isNested.append (hrest.isNested.prepend isFlat_comma)

end

/-- Something nested so deep is read from a text that is as high at least, and what is read changes
the balance by so much in front of a rest at which it may stop. -/
structure ReadsNested (text : Text) (nesting : Nat) (change : Int) (stops : Text → Prop)
    (left : Option Text) : Prop where
  le_height : (nesting : Int) ≤ height text
  behind : ∀ rest, left = some rest →
    stops rest ∧ ∃ front, text = front ++ rest ∧ balance front = change

namespace ReadsNested

variable {text front : Text} {nesting : Nat} {change : Int} {stops : Text → Prop}
variable {left : Option Text}

/-- Behind a text that opens some parentheses a text is nested deeper in them. -/
theorem prepend (h : ReadsNested text nesting change stops left) (opened : Nat)
    (hfront : balance front = opened) :
    ReadsNested (front ++ text) (nesting + opened) (opened + change) stops left where
  le_height := by
    have hle := h.le_height
    rw [height_append]
    omega
  behind rest hrest := by
    obtain ⟨hstops, read, rfl, hchange⟩ := h.behind rest hrest
    exact ⟨hstops, front ++ read, (List.append_assoc ..).symm, by
      rw [balance_append, hfront, hchange]⟩

/-- The parenthesis at which a chain stops closes one. -/
theorem close (h : ReadsNested text nesting change (fun rest => endsChain [')'] rest) left) :
    ReadsNested text nesting (change - 1) (fun _ => True) (left.map (List.drop 1)) where
  le_height := h.le_height
  behind rest hrest := by
    obtain ⟨closed, hclosed, rfl⟩ := Option.map_eq_some_iff.mp hrest
    obtain ⟨hends, read, rfl, hchange⟩ := h.behind closed hclosed
    obtain ⟨c, behind, rfl, hc⟩ := exists_of_endsChain hends (by decide)
    obtain rfl : c = ')' := List.mem_singleton.mp hc
    refine ⟨trivial, read ++ [')'], ?_, ?_⟩
    · rw [List.append_assoc, List.singleton_append]
      rfl
    · rw [balance_append, hchange]
      rfl

end ReadsNested

-- By induction on the length of the text, as the parts of it are read.
mutual

theorem readsNested_readChain (wanted text : Text) :
    ReadsNested text (seen (readChain wanted text)).1.nesting 0 (fun rest => endsChain wanted rest)
      (seen (readChain wanted text)).2 := by
  have hterm := readsNested_readTerm wanted text
  rw [seen_readChain]
  rcases hread : seen (readTerm wanted text) with ⟨term, _ | rest⟩
  · rw [hread] at hterm
    exact ⟨hterm.le_height, nofun⟩
  · rw [hread] at hterm
    obtain ⟨-, front, htext, hfront⟩ := hterm.behind rest rfl
    dsimp only
    split
    next hends =>
      exact ⟨hterm.le_height, fun other hother => by
        cases hother
        exact ⟨hends, front, htext, hfront⟩⟩
    next =>
      split
      next => exact ⟨hterm.le_height, nofun⟩
      next op behind hop =>
        have hsign := eq_of_leadingOperator? hop
        -- the sign makes the text behind it shorter
        have hlength : behind.length < text.length := by
          have hlt := length_leadingOperator? hop
          rw [htext, List.length_append]
          dsimp only at hlt
          omega
        have hopened : balance (front ++ op.sign) = (0 : Nat) := by
          rw [balance_append, hfront, (isFlat_sign op).balance_eq]
          rfl
        have hrest := (readsNested_readChain wanted behind).prepend 0 hopened
        rw [List.append_assoc, ← hsign, ← htext] at hrest
        refine ⟨?_, hrest.behind⟩
        have hle : (term.nesting : Int) ≤ height text := hterm.le_height
        have hle' := hrest.le_height
        dsimp only
        rw [Chain.nesting]
        omega
termination_by (text.length, 1)

theorem readsNested_readTerm (wanted text : Text) :
    ReadsNested text (seen (readTerm wanted text)).1.nesting 0 (fun _ => True)
      (seen (readTerm wanted text)).2 := by
  obtain ⟨hstarts, htext, -⟩ := readToken_spec wanted startsToken_nil text
  rcases hread : readToken wanted [] text with ⟨token, rest⟩
  rw [hread, List.nil_append] at htext
  rw [hread] at hstarts
  dsimp only at hstarts htext
  by_cases hopen : ∃ inner, rest = '(' :: inner
  · obtain ⟨inner, rfl⟩ := hopen
    have hlength : inner.length < text.length := by
      rw [htext, List.length_append, List.length_cons]
      omega
    have hopened : balance (token ++ ['(']) = (1 : Nat) := by
      rw [balance_append, hstarts.isFlat.balance_eq]
      rfl
    have hsplit : token ++ ['('] ++ inner = text := by
      rw [htext, List.append_assoc, List.singleton_append]
    rw [seen_readTerm_open hread]
    rcases signedName token with ⟨negated, name⟩
    dsimp only
    split
    next =>
      have hbody := (readsNested_readChain [')'] inner).prepend 1 hopened
      rw [hsplit] at hbody
      exact hbody.close
    next =>
      split
      next hclose =>
        obtain ⟨behind, rfl⟩ : ∃ behind, inner = ')' :: behind :=
          List.head?_eq_some_iff.mp (eq_of_beq hclose)
        have hempty : ReadsNested (')' :: behind) 0 (-1) (fun _ => True) (some behind) :=
          ⟨height_nonneg _, fun rest hrest => by
            cases hrest
            exact ⟨trivial, [')'], rfl, rfl⟩⟩
        have hcall := hempty.prepend 1 hopened
        rwa [hsplit] at hcall
      next =>
        have hcall := (readsNested_readArguments inner).prepend 1 hopened
        rwa [hsplit] at hcall
  · rw [seen_readTerm_token hread (not_exists.mp hopen)]
    split
    next => exact ⟨height_nonneg text, nofun⟩
    next =>
      refine ⟨height_nonneg text, fun other hother => ?_⟩
      cases hother
      exact ⟨trivial, token, htext, hstarts.isFlat.balance_eq⟩
termination_by (text.length, 0)

theorem readsNested_readArguments (text : Text) :
    ReadsNested text (seen (readArguments text)).1.nesting (-1) (fun _ => True)
      (seen (readArguments text)).2 := by
  have hchain := readsNested_readChain [',', ')'] text
  rw [seen_readArguments]
  rcases hread : seen (readChain [',', ')'] text) with ⟨first, _ | rest⟩
  · rw [hread] at hchain
    have hle : (first.nesting : Int) ≤ height text := hchain.le_height
    refine ⟨?_, nofun⟩
    dsimp only
    rw [Arguments.nesting, Arguments.nesting]
    omega
  · rw [hread] at hchain
    have hle : (first.nesting : Int) ≤ height text := hchain.le_height
    obtain ⟨hends, front, htext, hfront⟩ := hchain.behind rest rfl
    obtain ⟨c, behind, rfl, hc⟩ := exists_of_endsChain hends (by decide)
    dsimp only
    split
    next hcomma =>
      obtain rfl : c = ',' := Option.some.inj (eq_of_beq hcomma)
      have hlength : behind.length < text.length := by
        rw [htext, List.length_append, List.length_cons]
        omega
      have hopened : balance (front ++ [',']) = (0 : Nat) := by
        rw [balance_append, hfront, isFlat_comma.balance_eq]
        rfl
      have hrest := (readsNested_readArguments behind).prepend 0 hopened
      rw [List.append_assoc, List.singleton_append, ← htext] at hrest
      refine ⟨?_, fun left hleft => ?_⟩
      · have hle' := hrest.le_height
        rw [List.drop_one, List.tail_cons]
        dsimp only
        rw [Arguments.nesting]
        omega
      · exact hrest.behind left hleft
    next hcomma =>
      obtain rfl : c = ')' := by
        rcases List.mem_cons.mp hc with rfl | hc
        · exact absurd rfl hcomma
        · exact List.mem_singleton.mp hc
      refine ⟨?_, fun left hleft => ?_⟩
      · dsimp only
        rw [Arguments.nesting, Arguments.nesting]
        omega
      · cases hleft
        refine ⟨trivial, front ++ [')'], ?_, ?_⟩
        · rw [htext, List.append_assoc, List.singleton_append]
          rfl
        · rw [balance_append, hfront]
          rfl
termination_by (text.length, 2)

end

end MapAlgebra.Expression
