import MapAlgebra.Proofs.Advances

/-!
# Expressions that are a name

A value counts as one from a file when its expression is the name of the file, whatever parentheses
and minus signs stand around it. A minus sign makes a new value and does not change what it counts
as.
-/

namespace MapAlgebra.Expression

mutual

/-- The name that a chain is, and whether a minus sign stands in front of it. -/
def Chain.alone? : Chain → Option (Bool × Text)
  | .last term => term.alone?
  | .join .. => none
  | .broken .. => none

/-- The name that a term is in its parentheses, and whether a minus sign stands in front of it. -/
def Term.alone? : Term → Option (Bool × Text)
  | .token text => some (signedName text)
  | .missing _ => none
  | .group negated body => body.alone?.map fun found => (negated || found.1, found.2)
  | .call .. => none

end

variable {K V S : Type} [Coordinate K] [Number V] [Cell S V] [Conversion K V]
variable {scope : Scope K V}

/-- What a part counts as tells how it came about: it is a constant, or it was computed, or it is
the value of a name, made new by a minus sign in front of the name. -/
inductive CameAbout (scope : Scope K V) (session : Session K V S) (alone : Option (Bool × Text))
    (part : Part K V S) (after : Session K V S) : Prop
  | constant {c : Constant V} (h : part.value = .constant c)
  | computed (halone : alone = none) (h : part.provenance.isPersisted = false)
  | named {minus : Bool} {name : Text} {base : Part K V S} {between : Session K V S}
      (halone : alone = some (minus, name)) (hname : NameMeans scope session name base between)
      (hfiles : after.files = between.files) (hprovenance : part.provenance = base.provenance)
      (hkind : part.value.isConstant = base.value.isConstant)
      (hnew : minus = true → part.value.IsNew) (hsame : minus = false → part.value = base.value)

namespace CameAbout

variable {session after : Session K V S} {alone : Option (Bool × Text)} {part signed : Part K V S}

omit [Conversion K V] in
theorem of_signed {negated : Bool} (h : CameAbout scope session alone part after)
    (hsigned : Signed negated part signed) :
    CameAbout scope session (alone.map fun found => (negated || found.1, found.2)) signed
      after := by
  cases hsigned with
  | plain =>
      cases h with
      | constant hvalue => exact .constant hvalue
      | computed halone hpersisted => exact .computed (by rw [halone]; rfl) hpersisted
      | @named minus name _ _ halone hname hfiles hprovenance hkind hnew hsame =>
          exact .named (by rw [halone]; rfl) hname hfiles hprovenance hkind hnew hsame
  | @negated _ value hvalue =>
      -- whatever signs stood in front before, a value that was negated last is new
      have hminus := Operand.isNew_negate part.value value hvalue
      cases h with
      | @constant c hconstant =>
          rw [hconstant] at hvalue
          cases hvalue
          exact .constant rfl
      | computed halone hpersisted => exact .computed (by rw [halone]; rfl) hpersisted
      | @named minus name _ _ halone hname hfiles hprovenance hkind _ _ =>
          have hnegated :
              alone.map (fun found => (true || found.1, found.2)) = some (true, name) := by
            rw [halone]
            rfl
          have hkept : value.isConstant = part.value.isConstant :=
            Operand.isConstant_negate part.value value hvalue
          exact .named hnegated hname hfiles hprovenance (hkept.trans hkind) (fun _ => hminus) nofun

omit [Conversion K V] in
theorem of_files_eq {behind : Session K V S} (h : CameAbout scope session alone part after)
    (hfiles : behind.files = after.files) : CameAbout scope session alone part behind := by
  cases h with
  | constant hvalue => exact .constant hvalue
  | computed halone hpersisted => exact .computed halone hpersisted
  | named halone hname hnamed hprovenance hkind hnew hsame =>
      exact .named halone hname (hfiles.trans hnamed) hprovenance hkind hnew hsame

end CameAbout

theorem isPersisted_provenance (function : Function) :
    function.provenance.isPersisted = false := by
  cases function <;> rfl

theorem provenance_of_call_eq_ok {session after : Session K V S} {function : Function}
    {arguments : List (Part K V S)} {part : Part K V S}
    (h : Run.from? session (scope.call function arguments) = (.ok part, after)) :
    part.provenance = function.provenance := by
  obtain ⟨value, computed, text, rfl, -, -⟩ := exists_emit_of_call_eq_ok h
  rfl

-- By induction on the derivation. Groups and signs may stand around a name, all else computes.
mutual

theorem ChainMeans.cameAbout : ∀ {chain : Chain} {depth : Nat} {session after : Session K V S}
    {part : Part K V S}, ChainMeans scope depth session chain part after →
      CameAbout scope session chain.alone? part after
  | .last term, depth, session, after, part, h => by
      obtain ⟨hoperands, hmerge⟩ := h
      have hrow := hoperands.isRow
      cases hoperands with
      | last hterm hlink =>
          obtain ⟨rfl, rfl⟩ := link_eq_ok.mp hlink
          rcases single_or_complex_of_merge_eq_ok hrow hmerge with ⟨rfl, -, rfl⟩ | ⟨-, hrest⟩
          · exact hterm.cameAbout.of_files_eq rfl
          · exact absurd rfl hrest
  | .join term op rest, depth, session, after, part, h => by
      obtain ⟨hoperands, hmerge⟩ := h
      have hrow := hoperands.isRow
      cases hoperands with
      | join hterm hlink hmore =>
          rcases single_or_complex_of_merge_eq_ok hrow hmerge with ⟨-, hrest, -⟩ | ⟨hcomplex, -⟩
          · exact absurd hrest (List.cons_ne_nil _ _)
          · exact .computed rfl (by rw [hcomplex]; rfl)
  | .broken term wanted left, depth, session, after, part, h => by
      obtain ⟨hoperands, -⟩ := h
      cases hoperands

theorem TermMeans.cameAbout : ∀ {term : Term} {depth : Nat} {session after : Session K V S}
    {part : Part K V S}, TermMeans scope depth session term part after →
      CameAbout scope session term.alone? part after
  | .token text, depth, session, after, part, h => by
      cases h with
      | token h =>
          cases h with
          | number => exact .constant rfl
          | name hnumber hname hsigned =>
              -- the sign of a token is put in front of the value that its bare name has
              have hbase : CameAbout scope session (some (false, (signedName text).2)) _ after :=
                .named rfl hname rfl rfl rfl nofun fun _ => rfl
              have hnamed := hbase.of_signed hsigned
              rw [Option.map_some, Bool.or_false] at hnamed
              exact hnamed
  | .missing left, depth, session, after, part, h => by
      cases h
  | .group negated body, depth, session, after, part, h => by
      cases h with
      | group hbody hsigned => exact hbody.cameAbout.of_signed hsigned
  | .call negated name arguments, depth, session, after, part, h => by
      cases h with
      | call hname harguments hcount hcall hsigned =>
          have hcomputed : CameAbout scope session none _ after :=
            .computed rfl ((provenance_of_call_eq_ok hcall).symm ▸ isPersisted_provenance _)
          exact hcomputed.of_signed hsigned

end

namespace Scope

omit [Conversion K V] in
theorem link_bind_merge (scope : Scope K V) (depth : Nat) (part : Part K V S) {α : Type}
    (next : Link K V S → Run K V S α) :
    (do
      let first ← link depth none part
      let result ← scope.merge first []
      next result) = link depth none part >>= next := by
  unfold link
  simp only [bind_assoc, pure_bind]
  refine bind_congr fun id => ?_
  rw [merge_single scope rfl, pure_bind]

/-- A group of one term is evaluated as the term is. -/
theorem evaluateTerm_group_last (scope : Scope K V) (depth : Nat) (negated : Bool) (term : Term) :
    (scope.evaluateTerm depth (.group negated (.last term)) : Run K V S (Part K V S)) = (do
      scope.checkDepth (depth + 1)
      let part ← scope.evaluateTerm (depth + 1) term
      let result ← link (depth + 1) none part
      signed negated result.toPart) := by
  rw [evaluateTerm]
  simp only [evaluateLinks, bind_assoc, pure_bind, link_bind_merge]

end Scope

/-- An expression of one term is evaluated as the term is. -/
theorem evaluate_last (settings : Settings K V) {prepared : Prepared} {term : Term}
    (h : (Chain.last term).Spells prepared.text) :
    (evaluate settings prepared : Run K V S (Operand K V S × Provenance)) = (do
      let scope : Scope K V := ⟨settings, prepared⟩
      scope.checkDepth 0
      let part ← scope.evaluateTerm 0 term
      let result ← Scope.link 0 none part
      return (result.value,
        if result.value.isConstant then .constant else result.provenance)) := by
  rw [evaluate_of_spells settings h]
  simp only [Scope.evaluateLinks, bind_assoc, pure_bind, Scope.link_bind_merge]

end MapAlgebra.Expression
