import Mathlib.Data.Int.Range
import MapAlgebra.Proofs.LoopHeads

/-!
# Unrolling

Lines and loops, one after the other and one inside the other, form a forest. Unrolling knows no
forest: it looks for the end of a loop among lines in which the values of the inner loops are still
missing, puts the values of one loop into the lines and starts again. What comes out is what the
forest says: every line once for each choice of values of the loops around it.
-/

namespace MapAlgebra.Script

/-- What stands on the first and the last line of a loop. The last line may repeat the name of the
variable in any letter case. -/
structure Loop where
  number : Nat
  name : Text
  first : Text
  last : Text
  endNumber : Nat
  endName : Option Text := none
  isVariable : IsVariable name
  endName_eq : ∀ other ∈ endName, IsVariable other ∧ Text.upperAscii other = Text.upperAscii name

/-- Lines and loops, one after the other. -/
inductive Forest
  | empty
  | plain (line : Line) (rest : Forest)
  | nested (loop : Loop) (body rest : Forest)

/-- A line with values in place of the names of their variables. -/
def Values.fillLine (values : Values) (line : Line) : Line :=
  { line with text := values.fill line.text }

namespace Loop

def head (loop : Loop) : Line := ⟨loop.number, headText loop.name loop.first loop.last⟩

def close (loop : Loop) : Line := ⟨loop.endNumber, endText loop.endName⟩

/-- The values of the variable, from the first bound to the last; none when the last one is less. -/
def range (loop : Loop) (values : Values) : List Int :=
  Int.range (decimalValue (values.fill loop.first)) (decimalValue (values.fill loop.last) + 1)

end Loop

/-- A line that is neither the head nor the end of a loop. -/
def IsPlain (text : Text) : Prop :=
  LoopHead.ofText text = .ok none ∧ loopEnd? text = none

namespace Forest

/-- The lines as a script has them. -/
def lines : Forest → List Line
  | .empty => []
  | .plain line rest => line :: rest.lines
  | .nested loop body rest => loop.head :: (body.lines ++ loop.close :: rest.lines)

/-- Every line with the values of the loops around it, once for each choice of them. -/
def unrolled : Forest → Values → List Line
  | .empty, _ => []
  | .plain line rest, values => values.fillLine line :: rest.unrolled values
  | .nested loop body rest, values =>
      (loop.range values).flatMap (fun value => body.unrolled (values ++ [(loop.name, value)])) ++
        rest.unrolled values

/-- The bounds of loops are whole numbers with so many digits at most, once they have the values of
the loops around them. -/
def HasBounds (limit : Nat) : Forest → Values → Prop
  | .empty, _ => True
  | .plain _ rest, values => rest.HasBounds limit values
  | .nested loop body rest, values =>
      (∀ bound ∈ [loop.first, loop.last], IsDecimal (values.fill bound) ∧
        (decimalDigits (values.fill bound)).length ≤ limit) ∧
      (∀ value ∈ loop.range values, body.HasBounds limit (values ++ [(loop.name, value)])) ∧
      rest.HasBounds limit values

instance decidableHasBounds (limit : Nat) :
    (forest : Forest) → (values : Values) → Decidable (forest.HasBounds limit values)
  | .empty, _ => .isTrue trivial
  | .plain _ rest, values => decidableHasBounds limit rest values
  | .nested loop body rest, values =>
      have (value : Int) := decidableHasBounds limit body (values ++ [(loop.name, value)])
      have := decidableHasBounds limit rest values
      inferInstanceAs (Decidable (_ ∧ _ ∧ _))

end Forest

theorem IsPlain.isLoopHead {text : Text} (h : IsPlain text) :
    Script.isLoopHead text = false := by
  obtain ⟨hhead, -⟩ := h
  unfold LoopHead.ofText at hhead
  split at hhead
  next =>
    split at hhead
    next => cases hhead
    next hnone => exact Bool.eq_false_of_not_eq_true hnone
  next =>
    -- the parts of a head make a head or a fault
    split at hhead
    next => cases hhead
    next => split at hhead <;> cases hhead

theorem beginsWith_cons_of_ne {first c : Char} (h : c.toUpper ≠ first) (word rest : Text) :
    beginsWith (first :: word) (c :: rest) = false := by
  show (first == c.toUpper && _) = false
  rw [beq_eq_false_iff_ne.mpr (Ne.symm h), Bool.false_and]

theorem IsVariable.upper_eq {name : Text} (h : IsVariable name) :
    Text.upper name = Text.upperAscii name := by
  have hchar : ∀ c ∈ name, Text.upperChar c = [c.toUpper] := by
    intro c hc
    unfold Text.upperChar
    rw [if_pos (h.word c hc).1]
  unfold Text.upper Text.upperAscii
  rw [List.map_eq_flatMap, List.flatMap_def, List.flatMap_def, List.map_congr_left hchar]

/-- What is found behind lines that the search for the end of a loop has passed. -/
def behind (lines : List Line) (found : Except Fault (List Line × List Line)) :
    Except Fault (List Line × List Line) :=
  found.map fun found => (lines ++ found.1, found.2)

section Scanning

variable {start line : Line} {head : LoopHead} {depth : Nat} {rest : List Line}

theorem loopBody_plain (hhead : isLoopHead line.text = false) (hend : loopEnd? line.text = none) :
    loopBody start head depth (line :: rest) =
      behind [line] (loopBody start head depth rest) := by
  conv_lhs => unfold loopBody
  dsimp only
  rw [hhead, hend]
  rfl

theorem loopBody_head (h : isLoopHead line.text) :
    loopBody start head depth (line :: rest) =
      behind [line] (loopBody start head (depth + 1) rest) := by
  conv_lhs => unfold loopBody
  dsimp only
  rw [if_pos h]
  rfl

theorem loopBody_end_inner (hhead : isLoopHead line.text = false)
    (hend : (loopEnd? line.text).isSome) :
    loopBody start head (depth + 1) (line :: rest) =
      behind [line] (loopBody start head depth rest) := by
  obtain ⟨name, hname⟩ := Option.isSome_iff_exists.mp hend
  conv_lhs => unfold loopBody
  dsimp only
  rw [hhead, hname]
  rfl

end Scanning

section Filling

variable {values : Values}

end Filling

namespace Forest

theorem unroll_plain (files : FileTree) (base : Path) {line : Line} (h : IsPlain line.text)
    {rest unrolled : List Line} (hrest : unroll files base rest = .ok unrolled) :
    unroll files base (line :: rest) = .ok (line :: unrolled) := by
  have hhead : loopHead? line = .ok none := by
    unfold loopHead?
    rw [h.1]
  rw [unroll, hhead]
  dsimp only [bind, Except.bind]
  rw [h.2, hrest]
  rfl

section Vain

variable (zeros : Nat)

variable {zeros}

end Vain

end Forest

end MapAlgebra.Script
