import MapAlgebra.Proofs.Limits

/-!
# Where reading stops

Operands that are evaluated have been read up to a place where they may end, and only the last of
them has no operator behind it. A group or a call among them has been read through the parenthesis
that closes its own.
-/

namespace MapAlgebra.Expression

/-- What stands behind the parenthesis that closes the one in front of a text, when so many others
have been opened since. -/
def behindClosing? : Nat → Text → Option Text
  | _, [] => none
  | opened, c :: rest =>
      if c == '(' then behindClosing? (opened + 1) rest
      else if c == ')' then
        match opened with
        | 0 => some rest
        | opened + 1 => behindClosing? opened rest
      else behindClosing? opened rest

/-- No parenthesis of a text closes one in front of it, and none is left open. -/
def IsPassed (text : Text) : Prop :=
  ∀ opened rest, behindClosing? opened (text ++ rest) = behindClosing? opened rest

section Passed

variable {text front behind : Text}

theorem IsFlat.isPassed (h : IsFlat text) : IsPassed text := by
  intro opened rest
  induction text with
  | nil => rfl
  | cons c text ih =>
      obtain ⟨hopen, hclose⟩ := h c List.mem_cons_self
      have hskip : behindClosing? opened (c :: (text ++ rest)) =
          behindClosing? opened (text ++ rest) :=
        (if_neg (by simpa using hopen)).trans (if_neg (by simpa using hclose))
      rw [List.cons_append, hskip]
      exact ih fun d hd => h d (List.mem_cons_of_mem _ hd)

theorem IsPassed.append (hfront : IsPassed front) (hbehind : IsPassed behind) :
    IsPassed (front ++ behind) := by
  intro opened rest
  rw [List.append_assoc, hfront, hbehind]

theorem behindClosing?_open (opened : Nat) (rest : Text) :
    behindClosing? opened ('(' :: rest) = behindClosing? (opened + 1) rest := rfl

theorem IsPassed.enclosed (h : IsPassed text) : IsPassed ('(' :: (text ++ [')'])) := by
  intro opened rest
  rw [List.cons_append, List.append_assoc, behindClosing?_open, h]
  rfl

theorem IsPassed.behindClosing?_eq (h : IsPassed text) (rest : Text) :
    behindClosing? 0 (text ++ ')' :: rest) = some rest :=
  h 0 (')' :: rest)

end Passed

-- By induction on the derivation: only groups and calls spell parentheses, a pair each.
mutual

theorem Chain.Spells.isPassed : ∀ {chain : Chain} {text : Text}, chain.Spells text → IsPassed text
  | .last _, _, .last h => h.isPassed
  | .join _ op _, _, .join hterm _ hrest =>
      hterm.isPassed.append ((isFlat_sign op).isPassed.append hrest.isPassed)

theorem Term.Spells.isPassed : ∀ {term : Term} {text : Text}, term.Spells text → IsPassed text
  | .token _, _, .token h => h.2.isFlat.isPassed
  | .group negated _, _, .group h => (isFlat_minus negated).isPassed.append h.isPassed.enclosed
  | .call negated _ _, _, .call _ hname h =>
      (isFlat_minus negated).isPassed.append (hname.isFlat.isPassed.append h.isPassed.enclosed)

theorem Arguments.Spells.isPassed : ∀ {arguments : Arguments} {text : Text},
    arguments.Spells text → IsPassed text
  | .more _ .none, _, .last h => h.isPassed
  | .more _ _, _, .more h hrest => h.isPassed.append (isFlat_comma.isPassed.append hrest.isPassed)

end

/-- A whole group or call is read through the parenthesis that closes its own. -/
theorem seen_readTerm_eq_behindClosing? {wanted text token inner : Text}
    (htoken : readToken wanted [] text = (token, '(' :: inner))
    (h : (seen (readTerm wanted text)).1.Complete) :
    ∃ rest, (seen (readTerm wanted text)).2 = some rest ∧ behindClosing? 0 inner = some rest := by
  rw [seen_readTerm_open htoken] at h ⊢
  generalize signedName token = signed at h ⊢
  obtain ⟨negated, name⟩ := signed
  dsimp only at h ⊢
  split at h
  next hname =>
    rw [if_pos hname]
    obtain ⟨front, left, rfl, hleft, hspells, hends⟩ := spells_readChain [')'] inner h
    obtain ⟨c, behind, rfl, hc⟩ := exists_of_endsChain hends (by decide)
    obtain rfl : c = ')' := List.mem_singleton.mp hc
    exact ⟨behind, by rw [hleft]; rfl, hspells.isPassed.behindClosing?_eq behind⟩
  next hname =>
    rw [if_neg hname]
    split at h
    next => exact h.elim
    next hclose =>
      rw [if_neg hclose]
      obtain ⟨front, rest, rfl, hrest, ⟨spelled, rfl, hspells⟩, -⟩ := spells_readArguments inner h
      refine ⟨rest, hrest, ?_⟩
      rw [List.append_assoc]
      exact hspells.isPassed.behindClosing?_eq rest

/-- A place where operands may end: the end of the text when no character is wanted, and otherwise
one of the wanted characters. -/
def Cursor.MayEnd (cursor : Cursor) (wanted : Text) : Prop :=
  (wanted = [] ∧ cursor.atEnd) ∨ ∃ c ∈ wanted, cursor.peek? = some c

theorem mayEnd_of_endsChain {wanted text consumed left : Text} {position : Nat}
    (htext : text.drop position = consumed ++ left)
    (h : endsChain wanted left) : (Cursor.mk text (position + consumed.length)).MayEnd wanted := by
  have hdrop : text.drop (position + consumed.length) = left := by
    rw [← List.drop_drop, htext, List.drop_left]
  cases left with
  | nil =>
      refine .inl ⟨List.isEmpty_iff.mp h, ?_⟩
      have hle := List.drop_eq_nil_iff.mp hdrop
      simp only [Cursor.atEnd, decide_eq_true_eq]
      omega
  | cons c left =>
      refine .inr ⟨c, List.contains_iff_mem.mp h, ?_⟩
      have hhead := congrArg List.head? hdrop
      rw [List.head?_drop] at hhead
      unfold Cursor.peek?
      dsimp only
      rw [if_neg (by omega), if_neg (by omega)]
      have hindex : ((position : Int) + consumed.length + 0).toNat =
          position + consumed.length := by omega
      rw [hindex]
      exact hhead

section Evaluation

variable {K V S : Type} [Coordinate K] [Number V] [Cell S V] [Conversion K V]
variable {scope : Scope K V} {depth : Nat} {session after : Session K V S}

/-- The last of some links has no operator behind it, and it is the only one. -/
def EndsAlone (links : List (Link K V S)) : Prop :=
  ∃ front last, links = front ++ [last] ∧ last.action = none ∧
    ∀ link ∈ front, link.action.isSome

omit [Coordinate K] [Number V] [Cell S V] [Conversion K V] in
theorem EndsAlone.single {link : Link K V S} (h : link.action = none) : EndsAlone [link] :=
  ⟨[], link, rfl, h, List.forall_mem_nil _⟩

omit [Coordinate K] [Number V] [Cell S V] [Conversion K V] in
theorem EndsAlone.cons {link : Link K V S} {links : List (Link K V S)} (hlinks : EndsAlone links)
    (h : link.action.isSome) : EndsAlone (link :: links) := by
  obtain ⟨front, last, rfl, hlast, hfront⟩ := hlinks
  exact ⟨link :: front, last, rfl, hlast, List.forall_mem_cons.mpr ⟨h, hfront⟩⟩

omit [Coordinate K] [Number V] [Cell S V] [Conversion K V] in
theorem action_of_link {action : Option Operator} {part : Part K V S} {link : Link K V S}
    (h : Run.from? session (Scope.link depth action part) = (.ok link, after)) :
    link.action = action := by
  rw [(link_eq_ok.mp h).1]

theorem OperandsMean.endsAlone : ∀ {chain : Chain} {session : Session K V S}
    {links : Link K V S × List (Link K V S)},
    OperandsMean scope depth session chain links after → EndsAlone (links.1 :: links.2)
  | .last _, _, _, h => by
      cases h with
      | last _ hlink => exact .single (action_of_link hlink)
  | .join _ _ rest, _, _, h => by
      cases h with
      | join _ hlink hrest =>
          refine .cons hrest.endsAlone ?_
          rw [action_of_link hlink]
          rfl
  | .broken .., _, _, h => by cases h

/-- Operands that are evaluated from a place of a text, up to one of the wanted characters, have
been read up to a place where they may end, and only the last of them has no operator behind it. A
group or a call that is evaluated from a place of a text has been read through the parenthesis that
closes its own. -/
theorem stops_of_evaluateLinks (scope : Scope K V) (depth : Nat) (wanted text : Text)
    (position : Nat) (session after : Session K V S) :
    (∀ first rest, Run.from? session
        (scope.evaluateLinks depth (readChain wanted (text.drop position)).1) =
          (.ok (first, rest), after) →
      EndsAlone (first :: rest) ∧
      ∃ consumed left, text.drop position = consumed ++ left ∧
        (seen (readChain wanted (text.drop position))).2 = some left ∧
        (readChain wanted (text.drop position)).1.Spells consumed ∧
        (Cursor.mk text (position + consumed.length)).MayEnd wanted) ∧
    ∀ part token inner, readToken wanted [] (text.drop position) = (token, '(' :: inner) →
      Run.from? session (scope.evaluateTerm depth (readTerm wanted (text.drop position)).1) =
        (.ok part, after) →
      ∃ left, (seen (readTerm wanted (text.drop position))).2 = some left ∧
        behindClosing? 0 inner = some left := by
  constructor
  · intro first rest h
    obtain ⟨hmeans, hcomplete, -⟩ := operandsMean_of_eq_ok scope _ h
    obtain ⟨consumed, left, htext, hleft, hspells, hends⟩ := spells_readChain wanted _ hcomplete
    exact ⟨hmeans.endsAlone, consumed, left, htext, hleft, hspells,
      mayEnd_of_endsChain htext hends⟩
  · intro part token inner htoken h
    obtain ⟨-, hcomplete, -⟩ := termMeans_of_eq_ok scope _ h
    exact seen_readTerm_eq_behindClosing? htoken hcomplete

end Evaluation

section Groups

/-- The first argument of a call is a group. -/
def firstGroup : Term := .group false (.last (.token ['1']))

theorem spells_firstGroup : firstGroup.Spells "(1)".toList :=
  .group (.last (.token (isToken_single (by decide))))

/-- Where groups may be nested twice. -/
def twiceNested : Scope Float Float := ⟨Settings.limited {} 2, ⟨twoGroups, twoGroups, []⟩⟩

theorem stops_of_evaluateLinks_firstGroup : ∃ first rest part after after',
    Run.from? bare (twiceNested.evaluateLinks 1 (readChain [',', ')'] (twoGroups.drop 4)).1) =
        (.ok (first, rest), after) ∧
      Run.from? bare (twiceNested.evaluateTerm 1 (readTerm [',', ')'] (twoGroups.drop 4)).1) =
        (.ok part, after') ∧
      EndsAlone (first :: rest) ∧
      (∃ consumed left, twoGroups.drop 4 = consumed ++ left ∧ some ",(2))".toList = some left ∧
        (Cursor.mk twoGroups ((4 : Nat) + consumed.length)).MayEnd [',', ')']) ∧
      behindClosing? 0 "1),(2))".toList = some ",(2))".toList := by
  have hdrop : twoGroups.drop 4 = "(1)".toList ++ ",(2))".toList := by decide
  have hchain : seen (readChain [',', ')'] (twoGroups.drop 4)) =
      (.last firstGroup, some ",(2))".toList) :=
    hdrop ▸ seen_readChain_append closes_argument (.last spells_firstGroup) (by decide)
  have hterm : seen (readTerm [',', ')'] (twoGroups.drop 4)) =
      (firstGroup, some ",(2))".toList) :=
    hdrop ▸ seen_readTerm_append closes_argument spells_firstGroup fun c hc => by
      cases hc
      exact ⟨by decide, by decide, fun _ => by decide⟩
  have htoken : readToken [',', ')'] [] (twoGroups.drop 4) = ([], '(' :: "1),(2))".toList) := by
    decide +kernel
  have hlinks : Run.succeeds bare
      (twiceNested.evaluateLinks 1 (.last firstGroup)) fun _ _ => true := by
    simp only [firstGroup, Scope.evaluateTerm, Scope.evaluateLinks, bind_assoc, pure_bind,
      Scope.link_bind_merge]
    decide +kernel
  have hgroup : Run.succeeds bare (twiceNested.evaluateTerm 1 firstGroup) fun _ _ => true := by
    simp only [firstGroup, Scope.evaluateTerm, Scope.evaluateLinks, bind_assoc, pure_bind,
      Scope.link_bind_merge]
    decide +kernel
  have hreadChain : (readChain [',', ')'] (twoGroups.drop 4)).1 = .last firstGroup :=
    congrArg Prod.fst hchain
  have hreadTerm : (readTerm [',', ')'] (twoGroups.drop 4)).1 = firstGroup :=
    congrArg Prod.fst hterm
  rw [← hreadChain] at hlinks
  rw [← hreadTerm] at hgroup
  obtain ⟨⟨first, rest⟩, after, hrun, -⟩ := Run.exists_of_succeeds hlinks
  obtain ⟨part, after', hpart, -⟩ := Run.exists_of_succeeds hgroup
  obtain ⟨halone, consumed, left, htext, hleft, -, hends⟩ :=
    (stops_of_evaluateLinks twiceNested 1 [',', ')'] twoGroups 4 bare after).1 first rest hrun
  obtain ⟨behind, hbehind, hclosing⟩ :=
    (stops_of_evaluateLinks twiceNested 1 [',', ')'] twoGroups 4 bare after').2 part _ _ htoken hpart
  rw [hchain] at hleft
  rw [hterm] at hbehind
  exact ⟨first, rest, part, after, after', hrun, hpart, halone,
    ⟨consumed, left, htext, hleft, hends⟩, hclosing.trans hbehind.symm⟩

end Groups

end MapAlgebra.Expression
