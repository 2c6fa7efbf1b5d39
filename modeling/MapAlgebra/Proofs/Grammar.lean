import MapAlgebra.Proofs.Tokens

/-!
# The grammar of expressions

A derivation is a chain in which nothing is missing and nothing broken. It spells a text, and
reading the text gives the derivation back: no text has two.
-/

namespace MapAlgebra.Expression

mutual

/-- Operands with operators between them. Behind a mantissa a sign is no operator. -/
inductive Chain.Spells : Chain → Text → Prop
  | last {term : Term} {text : Text} (h : Term.Spells term text) : Chain.Spells (.last term) text
  | join {term : Term} {op : Operator} {rest : Chain} {front behind : Text}
      (hterm : Term.Spells term front)
      (hsign : AwaitsSign front → op ≠ .add ∧ op ≠ .subtract) (hrest : Chain.Spells rest behind) :
      Chain.Spells (.join term op rest) (front ++ (op.sign ++ behind))

/-- An operand is a token, a group, or a call of a function, the last two with an optional minus
sign. -/
inductive Term.Spells : Term → Text → Prop
  | token {text : Text} (h : IsToken text) : Term.Spells (.token text) text
  | group {negated : Bool} {body : Chain} {text : Text} (h : Chain.Spells body text) :
      Term.Spells (.group negated body) (minus negated ++ '(' :: (text ++ [')']))
  | call {negated : Bool} {name : Text} {arguments : Arguments} {text : Text} (hne : name ≠ [])
      (hname : IsBody name) (h : Arguments.Spells arguments text) :
      Term.Spells (.call negated name arguments) (minus negated ++ (name ++ '(' :: (text ++ [')'])))

/-- Chains with commas between them, at least one. -/
inductive Arguments.Spells : Arguments → Text → Prop
  | last {chain : Chain} {text : Text} (h : Chain.Spells chain text) :
      Arguments.Spells (.more chain .none) text
  | more {chain : Chain} {rest : Arguments} {front behind : Text} (h : Chain.Spells chain front)
      (hrest : Arguments.Spells rest behind) :
      Arguments.Spells (.more chain rest) (front ++ ',' :: behind)

end

mutual

/-- Nothing is missing, nothing is broken, and no call is without arguments. -/
def Chain.Complete : Chain → Prop
  | .last term => term.Complete
  | .join term _ rest => term.Complete ∧ rest.Complete
  | .broken .. => False

def Term.Complete : Term → Prop
  | .token _ => True
  | .missing _ => False
  | .group _ body => body.Complete
  | .call _ _ arguments => arguments.Complete

def Arguments.Complete : Arguments → Prop
  | .none => False
  | .more first .none => first.Complete
  | .more first (.more second rest) => first.Complete ∧ (Arguments.more second rest).Complete

end

/-- What is read at the start of a text and the rest behind it. -/
def seen {α : Type} {text : Text} (found : α × Rest text) : α × Option Text :=
  (found.1, found.2.map Subtype.val)

theorem seen_readChain (wanted text : Text) :
    seen (readChain wanted text) =
      match seen (readTerm wanted text) with
      | (term, none) => (.last term, none)
      | (term, some rest) =>
          if endsChain wanted rest then (.last term, some rest)
          else
            match leadingOperator? rest with
            | none => (.broken term wanted rest.length, none)
            | some (op, behind) =>
                let (chain, left) := seen (readChain wanted behind)
                (.join term op chain, left) := by
  rw [readChain]
  rcases readTerm wanted text with ⟨term, _ | ⟨rest, hrest⟩⟩
  · rfl
  · show _ = if endsChain wanted rest then _ else _
    dsimp only
    split
    next => rfl
    next =>
      split
      next hnone =>
        simp only [hnone]
        rfl
      next op behind hsome =>
        simp only [hsome, seen, Option.map_map]
        rfl

theorem seen_readTerm_open {wanted text token inner : Text}
    (h : readToken wanted [] text = (token, '(' :: inner)) :
    seen (readTerm wanted text) =
      let (negated, name) := signedName token
      if name.isEmpty then
        let (body, left) := seen (readChain [')'] inner)
        (.group negated body, left.map (List.drop 1))
      else if inner.head? == some ')' then (.call negated name .none, some (inner.drop 1))
      else
        let (arguments, left) := seen (readArguments inner)
        (.call negated name arguments, left) := by
  rw [readTerm]
  split
  next htoken =>
    rw [h] at htoken
    cases htoken
    rcases signedName token with ⟨negated, name⟩
    dsimp only
    split
    next =>
      simp only [seen, Option.map_map]
      rfl
    next =>
      split
      next => rfl
      next =>
        simp only [seen, Option.map_map]
        rfl
  next rest hne htoken =>
    rw [h] at htoken
    exact absurd (Prod.mk.inj htoken).2.symm (hne inner)
  next rest hne htoken =>
    rw [h] at htoken
    exact absurd (Prod.mk.inj htoken).2.symm (hne inner)

theorem seen_readTerm_token {wanted text token rest : Text}
    (h : readToken wanted [] text = (token, rest)) (hopen : ∀ inner, rest ≠ '(' :: inner) :
    seen (readTerm wanted text) =
      if token = [] then (.missing rest.length, none) else (.token token, some rest) := by
  rw [readTerm]
  split
  next htoken =>
    rw [h] at htoken
    exact absurd (Prod.mk.inj htoken).2 (hopen _)
  next htoken =>
    rw [h] at htoken
    cases htoken
    rfl
  next htoken =>
    rw [h] at htoken
    cases htoken
    rfl

theorem seen_readArguments (text : Text) :
    seen (readArguments text) =
      match seen (readChain [',', ')'] text) with
      | (first, none) => (.more first .none, none)
      | (first, some rest) =>
          if rest.head? == some ',' then
            let (arguments, left) := seen (readArguments (rest.drop 1))
            (.more first arguments, left)
          else (.more first .none, some (rest.drop 1)) := by
  rw [readArguments]
  rcases readChain [',', ')'] text with ⟨first, _ | ⟨rest, hrest⟩⟩
  · rfl
  · show _ = if rest.head? == some ',' then _ else _
    dsimp only
    split
    next =>
      simp only [seen, Option.map_map]
      rfl
    next => rfl

/-- The sign of an operator is read as a whole, in front of what can begin an operand. -/
theorem leadingOperator?_sign (op : Operator) {rest : Text}
    (h : ∀ c ∈ rest.head?, c ≠ '=') :
    leadingOperator? (op.sign ++ rest) = some (op, rest) := by
  cases rest with
  | nil => cases op <;> rfl
  | cons c rest =>
      have hequal : '=' ≠ c := (h c rfl).symm
      cases op <;>
        simp [leadingOperator?, Operator.ofSign?, Operator.all, Operator.sign, hequal]

theorem eq_sign_of_ofSign? {text : Text} {op : Operator} (h : Operator.ofSign? text = some op) :
    text = op.sign := by
  unfold Operator.ofSign? at h
  exact (eq_of_beq (List.find?_some h :)).symm

theorem eq_of_leadingOperator? {text rest : Text} {op : Operator}
    (h : leadingOperator? text = some (op, rest)) : text = op.sign ++ rest := by
  unfold leadingOperator? at h
  split at h
  next => cases h
  next c =>
    obtain ⟨found, hop, heq⟩ := Option.map_eq_some_iff.mp h
    cases heq
    rw [← eq_sign_of_ofSign? hop]
    rfl
  next c d rest =>
    split at h
    next found hop =>
      cases h
      rw [← eq_sign_of_ofSign? hop]
      rfl
    next =>
      obtain ⟨found, hop, heq⟩ := Option.map_eq_some_iff.mp h
      cases heq
      rw [← eq_sign_of_ofSign? hop]
      rfl

/-- Operands begin with a plain character, a minus sign or a parenthesis. -/
theorem Term.Spells.head {term : Term} {text : Text} (h : term.Spells text) :
    ∃ c rest, text = c :: rest ∧ (isPlain c ∨ c = '-' ∨ c = '(') := by
  have hbody {body : Text} (hbody : IsBody body) (hne : body ≠ []) (rest : Text) :
      ∃ c more, body ++ rest = c :: more ∧ (isPlain c ∨ c = '-' ∨ c = '(') := by
    cases hbody with
    | plain h =>
        obtain ⟨c, more, rfl⟩ := List.exists_cons_of_ne_nil hne
        exact ⟨c, more ++ rest, rfl, .inl (h c List.mem_cons_self)⟩
    | @scientific mantissa exponent sign h =>
        have hmantissa : mantissa ≠ [] := by
          obtain ⟨-, -⟩ := h
          simp
        obtain ⟨c, more, rfl⟩ := List.exists_cons_of_ne_nil hmantissa
        exact ⟨c, more ++ sign :: exponent ++ rest, rfl, .inl (h.plain c List.mem_cons_self)⟩
  have hnegated (front rest : Text) {negated : Bool}
      (hfront : ∃ c more, front ++ rest = c :: more ∧ (isPlain c ∨ c = '-' ∨ c = '(')) :
      ∃ c more, minus negated ++ (front ++ rest) = c :: more ∧ (isPlain c ∨ c = '-' ∨ c = '(') := by
    cases negated with
    | false => exact hfront
    | true => exact ⟨'-', front ++ rest, rfl, .inr (.inl rfl)⟩
  cases h with
  | token h =>
      obtain ⟨hne, negated, body, h, rfl⟩ := h
      cases negated with
      | false => simpa [minus] using hbody h hne []
      | true => exact ⟨'-', body, rfl, .inr (.inl rfl)⟩
  | group h => exact hnegated ['('] _ ⟨'(', _, rfl, .inr (.inr rfl)⟩
  | call hne hname h => exact hnegated _ _ (hbody hname hne _)

theorem Chain.Spells.head {chain : Chain} {text : Text} (h : chain.Spells text) :
    ∃ c rest, text = c :: rest ∧ (isPlain c ∨ c = '-' ∨ c = '(') := by
  cases h with
  | last h => exact h.head
  | join hterm hsign hrest =>
      obtain ⟨c, rest, rfl, hc⟩ := hterm.head
      exact ⟨c, _, rfl, hc⟩

theorem Arguments.Spells.head {arguments : Arguments} {text : Text} (h : arguments.Spells text) :
    ∃ c rest, text = c :: rest ∧ (isPlain c ∨ c = '-' ∨ c = '(') := by
  cases h with
  | last h => exact h.head
  | more h hrest =>
      obtain ⟨c, rest, rfl, hc⟩ := h.head
      exact ⟨c, _, rfl, hc⟩

/-- The characters that are wanted behind a chain. -/
def Closes (wanted : Text) : Prop :=
  ∀ c ∈ wanted, c = ')' ∨ c = ','

theorem closes_argument : Closes [',', ')'] := by
  intro c hc
  simpa [or_comm] using hc

theorem Closes.not_plain {wanted : Text} (h : Closes wanted) : ∀ c ∈ wanted, isPlain c = false := by
  intro c hc
  rcases h c hc with rfl | rfl <;> rfl

theorem readToken_append {wanted token rest : Text} (hwanted : Closes wanted)
    (htoken : StartsToken token)
    (hrest : ∀ c ∈ rest.head?, isPlain c = false ∧ (c = '-' → token ≠ []) ∧
      (AwaitsSign token → c ≠ '+' ∧ c ≠ '-')) :
    readToken wanted [] (token ++ rest) = (token, rest) := by
  rw [readToken_of_startsToken hwanted.not_plain htoken]
  refine readToken_of_stops fun c hc => ?_
  obtain ⟨hplain, hminus, hsign⟩ := hrest c hc
  rw [← Bool.not_eq_true]
  intro hcontinues
  rcases of_continuesToken hcontinues with h | ⟨h, hnil⟩ | ⟨h, hawaits⟩
  · rw [hplain] at h
    cases h
  · exact hminus h hnil
  · rcases h with h | h
    · exact (hsign hawaits).1 h
    · exact (hsign hawaits).2 h

theorem signedName_minus {negated : Bool} {name : Text} (h : ∀ rest, name ≠ '-' :: rest) :
    signedName (minus negated ++ name) = (negated, name) := by
  cases negated with
  | true => rfl
  | false =>
      show signedName name = _
      unfold signedName
      split
      next rest => exact absurd rfl (h rest)
      next => rfl

theorem IsBody.ne_minus {body : Text} (h : IsBody body) (rest : Text) : body ≠ '-' :: rest := by
  rintro hbody
  cases h with
  | plain h =>
      rw [hbody] at h
      exact absurd (h '-' List.mem_cons_self) (by decide)
  | @scientific mantissa exponent sign h =>
      cases mantissa with
      | nil =>
          generalize hnil : ([] : Text) = text at h
          cases h with
          | intro => simp at hnil
      | cons c more =>
          cases hbody
          exact absurd (h.plain '-' List.mem_cons_self) (by decide)

theorem ne_equal_of_head {c : Char} (h : isPlain c ∨ c = '-' ∨ c = '(') : c ≠ '=' := by
  rintro rfl
  revert h
  decide

/-- The first character of a sign goes on with no token that does not await it, and closes
nothing. -/
theorem head_sign (op : Operator) :
    ∃ c rest, op.sign = c :: rest ∧ isPlain c = false ∧ c ≠ '(' ∧ c ≠ ')' ∧ c ≠ ',' ∧
      (c = '+' → op = .add) ∧ (c = '-' → op = .subtract) := by
  cases op <;> exact ⟨_, _, rfl, by decide⟩

-- By induction on the derivation, of which each production spells its parts in a row.
mutual

/-- What a derivation spells is read as the derivation, up to where the chain is to end. -/
theorem seen_readChain_append {wanted : Text} (hwanted : Closes wanted) :
    ∀ {chain : Chain} {text : Text}, chain.Spells text → ∀ {rest : Text}, endsChain wanted rest →
      seen (readChain wanted (text ++ rest)) = (chain, some rest)
  | .last term, _, .last hterm, rest, hrest => by
      have hstops : ∀ c ∈ rest.head?, c = ')' ∨ c = ',' := by
        intro c hc
        cases rest with
        | nil => cases hc
        | cons d rest =>
            cases hc
            exact hwanted c (List.contains_iff_mem.mp hrest)
      rw [seen_readChain, seen_readTerm_append hwanted hterm fun c hc => ?_]
      · exact if_pos hrest
      · rcases hstops c hc with rfl | rfl
        · exact ⟨rfl, by decide, fun _ => by decide⟩
        · exact ⟨rfl, by decide, fun _ => by decide⟩
  | .join term op more, _, .join hterm hsign hmore, rest, hrest => by
      obtain ⟨c, tail, hbehind, hc⟩ := hmore.head
      -- the first character of the sign neither goes on with the token nor closes the chain
      obtain ⟨d, signRest, hop, hplain, hopen, hclose, hcomma, hadd, hsubtract⟩ := head_sign op
      have hends (behind : Text) : ¬ endsChain wanted (op.sign ++ behind) := by
        rw [hop]
        intro h
        rcases hwanted d (List.contains_iff_mem.mp h) with rfl | rfl
        · exact hclose rfl
        · exact hcomma rfl
      rw [List.append_assoc, List.append_assoc, seen_readChain,
        seen_readTerm_append hwanted hterm fun e he => ?_]
      · dsimp only
        rw [if_neg (hends _), leadingOperator?_sign op ?_]
        · dsimp only
          rw [seen_readChain_append hwanted hmore hrest]
        · rw [hbehind]
          rintro e ⟨⟩
          exact ne_equal_of_head hc
      · rw [hop] at he
        cases he
        refine ⟨hplain, hopen, fun hawaits => ⟨fun h => ?_, fun h => ?_⟩⟩
        · exact (hsign hawaits).1 (hadd h)
        · exact (hsign hawaits).2 (hsubtract h)

theorem seen_readTerm_append {wanted : Text} (hwanted : Closes wanted) :
    ∀ {term : Term} {text : Text}, term.Spells text → ∀ {rest : Text},
      (∀ c ∈ rest.head?, isPlain c = false ∧ c ≠ '(' ∧ (AwaitsSign text → c ≠ '+' ∧ c ≠ '-')) →
      seen (readTerm wanted (text ++ rest)) = (term, some rest)
  | .token text, _, .token htoken, rest, hrest => by
      obtain ⟨hne, hstarts⟩ := htoken
      have htoken := readToken_append hwanted hstarts fun c hc =>
        ⟨(hrest c hc).1, fun _ => hne, (hrest c hc).2.2⟩
      rw [seen_readTerm_token htoken, if_neg hne]
      rintro inner rfl
      exact (hrest '(' rfl).2.1 rfl
  | .group negated body, _, @Term.Spells.group _ _ text hbody, rest, hrest => by
      -- in front of the parenthesis of a group stands nothing, or the minus sign alone
      have hstarts : StartsToken (minus negated) :=
        ⟨negated, [], .plain (fun c hc => by cases hc), (List.append_nil _).symm⟩
      have hname : signedName (minus negated) = (negated, []) := by cases negated <;> rfl
      rw [List.append_assoc, List.cons_append,
        seen_readTerm_open (readToken_append hwanted hstarts ?_), hname]
      · dsimp only
        rw [if_pos List.isEmpty_nil, List.append_assoc, List.singleton_append,
          seen_readChain_append (fun c hc => .inl (List.mem_singleton.mp hc)) hbody rfl]
        rfl
      · rintro c ⟨⟩
        exact ⟨rfl, (absurd · (by decide)), fun _ => by decide⟩
  | .call negated name arguments, _, @Term.Spells.call _ _ _ text hne hname harguments, rest,
      hrest => by
      obtain ⟨c, tail, htext, hc⟩ := harguments.head
      have hstarts : StartsToken (minus negated ++ name) := ⟨negated, name, hname, rfl⟩
      -- arguments begin with an operand, so the list is not closed at once
      have hclose : ¬ ((text ++ ')' :: rest).head? == some ')') := by
        rw [htext]
        intro h
        have heq : c = ')' := Option.some.inj (eq_of_beq h)
        rw [heq] at hc
        revert hc
        decide
      rw [List.append_assoc, List.append_assoc, ← List.append_assoc, List.cons_append,
        seen_readTerm_open (readToken_append hwanted hstarts ?_), signedName_minus hname.ne_minus]
      · dsimp only
        rw [if_neg (by simpa using hne), List.append_assoc, List.singleton_append, if_neg hclose,
          seen_readArguments_append harguments]
      · rintro d ⟨⟩
        exact ⟨rfl, (absurd · (by decide)), fun _ => by decide⟩

theorem seen_readArguments_append :
    ∀ {arguments : Arguments} {text : Text}, arguments.Spells text → ∀ {rest : Text},
      seen (readArguments (text ++ ')' :: rest)) = (arguments, some rest)
  | .more chain .none, _, .last hchain, rest => by
      rw [seen_readArguments, seen_readChain_append closes_argument hchain rfl]
      rfl
  | .more chain arguments, _, .more hchain hmore, rest => by
      rw [List.append_assoc, List.cons_append, seen_readArguments,
        seen_readChain_append closes_argument hchain rfl]
      dsimp only
      rw [List.head?_cons, if_pos (beq_self_eq_true _), List.drop_one, List.tail_cons,
        seen_readArguments_append hmore]

end

theorem AwaitsSign.not_mem_open {text : Text} (h : AwaitsSign text) : '(' ∉ text := by
  obtain ⟨negated, mantissa, h, rfl⟩ := h
  intro hmem
  rcases List.mem_append.mp hmem with hmem | hmem
  · revert hmem
    cases negated <;> decide
  · exact absurd (h.plain '(' hmem) (by decide)

theorem exists_of_endsChain {wanted rest : Text} (h : endsChain wanted rest) (hne : wanted ≠ []) :
    ∃ c behind, rest = c :: behind ∧ c ∈ wanted := by
  cases rest with
  | nil => exact absurd (List.isEmpty_iff.mp h) hne
  | cons c behind => exact ⟨c, behind, rfl, List.contains_iff_mem.mp h⟩

theorem exists_more_readArguments (text : Text) :
    ∃ first rest, (seen (readArguments text)).1 = .more first rest := by
  rw [seen_readArguments]
  rcases seen (readChain [',', ')'] text) with ⟨first, _ | rest⟩
  · exact ⟨first, .none, rfl⟩
  · dsimp only
    split
    next => exact ⟨first, _, rfl⟩
    next => exact ⟨first, .none, rfl⟩

/-- A chain is read from the front of a text: the chain spells what is in front of the rest. -/
def ReadsFrom {α : Type} (spells : α → Text → Prop) (text : Text) (found : α × Option Text)
    (stops : Text → Text → Prop) : Prop :=
  ∃ front rest, text = front ++ rest ∧ found.2 = some rest ∧ spells found.1 front ∧ stops front rest

-- By induction on the length of the text. A chain and the term that it begins with share a text, as
-- do arguments and their first chain, so that the term comes before the chain and the chain before
-- the arguments.
mutual

/-- What is read without a break is a derivation of what is in front of the rest. -/
theorem spells_readChain (wanted text : Text) (h : (seen (readChain wanted text)).1.Complete) :
    ReadsFrom Chain.Spells text (seen (readChain wanted text))
      fun _ rest => endsChain wanted rest := by
  have hterm := spells_readTerm wanted text
  rw [seen_readChain] at h ⊢
  rcases hread : seen (readTerm wanted text) with ⟨term, _ | rest⟩
  · rw [hread] at h hterm
    obtain ⟨front, rest, -, hrest, -⟩ := hterm h
    cases hrest
  · rw [hread] at h hterm
    dsimp only at h ⊢
    split at h
    next hends =>
      obtain ⟨front, rest', htext, hrest, hspells, -⟩ := hterm h
      cases hrest
      rw [if_pos hends]
      exact ⟨front, rest, htext, rfl, .last hspells, hends⟩
    next hends =>
      split at h
      next => exact h.elim
      next op behind hop =>
        obtain ⟨front, rest', htext, hrest, hspells, hstops⟩ := hterm h.1
        cases hrest
        have hsign := eq_of_leadingOperator? hop
        -- the sign makes the text behind it shorter
        have hlength : behind.length < text.length := by
          have hlt := length_leadingOperator? hop
          rw [htext, List.length_append]
          dsimp only at hlt
          omega
        obtain ⟨front', left, hbehind, hleft, hmore, hclosed⟩ := spells_readChain wanted behind h.2
        rw [if_neg hends]
        refine ⟨front ++ (op.sign ++ front'), left, ?_, hleft, .join hspells ?_ hmore, hclosed⟩
        · rw [htext, hsign, hbehind]
          simp only [List.append_assoc]
        · intro hawaits
          have hne := hstops hawaits
          rw [hsign] at hne
          constructor
          · rintro rfl
            exact (hne '+' rfl).1 rfl
          · rintro rfl
            exact (hne '-' rfl).2 rfl
termination_by (text.length, 1)

theorem spells_readTerm (wanted text : Text) (h : (seen (readTerm wanted text)).1.Complete) :
    ReadsFrom Term.Spells text (seen (readTerm wanted text))
      fun front rest => AwaitsSign front → ∀ c ∈ rest.head?, c ≠ '+' ∧ c ≠ '-' := by
  obtain ⟨hstarts, htext, hstops⟩ := readToken_spec wanted startsToken_nil text
  rcases hread : readToken wanted [] text with ⟨token, rest⟩
  rw [hread, List.nil_append] at htext
  rw [hread] at hstarts hstops
  dsimp only at hstarts htext hstops
  by_cases hopen : ∃ inner, rest = '(' :: inner
  · obtain ⟨inner, rfl⟩ := hopen
    obtain ⟨negated, name, hbody, rfl⟩ := hstarts
    have hlength : inner.length < text.length := by
      rw [htext, List.length_append, List.length_cons]
      omega
    -- there is no parenthesis in a mantissa
    have hawaits (front : Text) : ¬ AwaitsSign (minus negated ++ (name ++ '(' :: front)) :=
      fun h => h.not_mem_open (by simp)
    rw [seen_readTerm_open hread, signedName_minus hbody.ne_minus] at h ⊢
    dsimp only at h ⊢
    split at h
    next hempty =>
      obtain rfl : name = [] := List.isEmpty_iff.mp hempty
      obtain ⟨front, left, hinner, hleft, hspells, hclosed⟩ := spells_readChain [')'] inner h
      obtain ⟨c, behind, rfl, hc⟩ := exists_of_endsChain hclosed (by decide)
      obtain rfl : c = ')' := List.mem_singleton.mp hc
      rw [if_pos hempty]
      refine ⟨_, behind, ?_, ?_, .group hspells, fun h => (hawaits _ h).elim⟩
      · rw [htext, hinner]
        simp only [List.append_assoc, List.cons_append, List.nil_append]
      · rw [hleft]
        rfl
    next hname =>
      rw [if_neg hname]
      split at h
      next => exact h.elim
      next hclose =>
        obtain ⟨front, rest, hinner, hrest, ⟨spelled, rfl, hspells⟩, -⟩ :=
          spells_readArguments inner h
        rw [if_neg hclose]
        refine ⟨_, rest, ?_, hrest, .call (by simpa using hname) hbody hspells,
          fun h => (hawaits _ h).elim⟩
        rw [htext, hinner]
        simp only [List.append_assoc, List.cons_append, List.nil_append]
  · rw [seen_readTerm_token hread (not_exists.mp hopen)] at h ⊢
    split at h
    next => exact h.elim
    next hne =>
      rw [if_neg hne]
      refine ⟨token, rest, htext, rfl, .token ⟨hne, hstarts⟩, fun hawaits c hc => ?_⟩
      -- a sign behind a mantissa would have been read as part of the token
      have hcontinues := hstops c hc
      unfold continuesToken at hcontinues
      rw [awaitsExponent_iff.mpr hawaits] at hcontinues
      constructor <;> rintro rfl <;> simp at hcontinues
termination_by (text.length, 0)

theorem spells_readArguments (text : Text) (h : (seen (readArguments text)).1.Complete) :
    ReadsFrom (fun arguments front => ∃ inner, front = inner ++ [')'] ∧ arguments.Spells inner) text
      (seen (readArguments text)) fun _ _ => True := by
  have hchain := spells_readChain [',', ')'] text
  rw [seen_readArguments] at h ⊢
  rcases hread : seen (readChain [',', ')'] text) with ⟨first, _ | rest⟩
  · rw [hread] at h hchain
    obtain ⟨front, rest, -, hrest, -⟩ := hchain h
    cases hrest
  · rw [hread] at h hchain
    dsimp only at h ⊢
    split at h
    next hcomma =>
      obtain ⟨behind, rfl⟩ : ∃ behind, rest = ',' :: behind :=
        List.head?_eq_some_iff.mp (eq_of_beq hcomma)
      -- behind a comma an argument is read, complete or not
      obtain ⟨second, more, hmore⟩ := exists_more_readArguments behind
      rw [List.drop_one, List.tail_cons] at h ⊢
      rw [hmore] at h
      obtain ⟨front, rest', htext, hrest, hspells, -⟩ := hchain h.1
      cases hrest
      have hlength : behind.length < text.length := by
        rw [htext, List.length_append, List.length_cons]
        omega
      obtain ⟨front', left, hbehind, hleft, ⟨inner, rfl, hrest⟩, -⟩ :=
        spells_readArguments behind (hmore ▸ h.2)
      refine ⟨front ++ ',' :: (inner ++ [')']), left, ?_, hleft,
        ⟨front ++ ',' :: inner, ?_, .more hspells hrest⟩, trivial⟩
      · rw [htext, hbehind]
        simp only [List.append_assoc, List.cons_append]
      · simp only [List.append_assoc, List.cons_append]
    next hcomma =>
      obtain ⟨front, rest', htext, hrest, hspells, hclosed⟩ := hchain h
      cases hrest
      obtain ⟨c, behind, rfl, hc⟩ := exists_of_endsChain hclosed (by decide)
      obtain rfl : c = ')' := by
        rcases List.mem_cons.mp hc with rfl | hc
        · exact absurd rfl hcomma
        · exact List.mem_singleton.mp hc
      rw [if_neg hcomma]
      refine ⟨front ++ [')'], behind, ?_, rfl, ⟨front, rfl, .last hspells⟩, trivial⟩
      rw [htext, List.append_assoc, List.singleton_append]
termination_by (text.length, 2)

end

/-- A whole text that is a derivation's is read as the derivation. -/
theorem Chain.Spells.eq_readChain {chain : Chain} {text : Text} (h : chain.Spells text) :
    chain = (readChain [] text).1 := by
  have hnil : Closes [] := fun c hc => by cases hc
  have hseen : seen (readChain [] (text ++ [])) = (chain, some []) :=
    seen_readChain_append hnil h rfl
  rw [List.append_nil] at hseen
  exact (congrArg Prod.fst hseen).symm

/-- A text has at most one derivation. -/
theorem Chain.Spells.unique {first second : Chain} {text : Text} (hfirst : first.Spells text)
    (hsecond : second.Spells text) : first = second :=
  hfirst.eq_readChain.trans hsecond.eq_readChain.symm

theorem spells_of_complete {text : Text} (h : (readChain [] text).1.Complete) :
    (readChain [] text).1.Spells text := by
  obtain ⟨front, rest, htext, -, hspells, hends⟩ := spells_readChain [] text h
  cases rest with
  | nil =>
      rw [List.append_nil] at htext
      rw [htext] at hspells ⊢
      exact hspells
  | cons c rest => cases hends

end MapAlgebra.Expression
