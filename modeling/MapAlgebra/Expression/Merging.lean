import MapAlgebra.Operator

/-!
# Merging operands

Operands with operators between them are merged two by two until one is left. Operators of higher
priority go first and operators of one priority from left to right. No tree is made: an operand
waits for its right side while operators that bind more strongly are merged into it.
-/

namespace MapAlgebra.Expression

variable {m : Type → Type} [Monad m] {α : Type}

/-- An operand in a row and the operator behind it. The last operand of a row has none. -/
structure Placed (α : Type) where
  operand : α
  action : Option Operator

namespace Placed

/-- The end of a row has the priority of the operators that are merged last. -/
def priority (item : Placed α) : Nat :=
  (item.action.map Operator.priority).getD 0

/-- Whether the left of two operands can be merged before anything is merged into the right one. -/
def canMerge (left right : Placed α) : Bool :=
  right.priority ≤ left.priority

end Placed

/-- What is left of a row, at most a number of operands. -/
abbrev Left (α : Type) (most : Nat) := { left : List (Placed α) // left.length ≤ most }

def Left.widen {most more : Nat} (left : Left α most) (h : most ≤ more) : Left α more :=
  ⟨left.1, Nat.le_trans left.2 h⟩

mutual

/-- Merges the operands at the front of the rest into the current one, `once` or until none is
left. Gives the merged operand and what is left of the rest. -/
def mergeList (step : α → Operator → α → m α) (once : Bool) (current : Placed α)
    (rest : List (Placed α)) : OptionT m (Placed α × Left α (rest.length - 1)) :=
  match rest with
  | [] => return (current, ⟨[], Nat.le_refl 0⟩)
  | following :: rest => do
      let (following, left) ← settle step current following rest
      let some op := current.action | failure
      let merged : Placed α := ⟨← step current.operand op following.operand, following.action⟩
      if once then return (merged, left)
      else
        have := Nat.lt_succ_of_le left.2
        let (merged, left') ← mergeList step false merged left.1
        return (merged, left'.widen (Nat.le_trans (Nat.pred_le _) left.2))
termination_by (rest.length, 0)

/-- Merges operands of the rest into the following one until the current one can be merged with it.
There is nothing to wait for behind the end of the rest: then there is no result. -/
def settle (step : α → Operator → α → m α) (current following : Placed α)
    (rest : List (Placed α)) : OptionT m (Placed α × Left α rest.length) :=
  if current.canMerge following then return (following, ⟨rest, Nat.le_refl _⟩)
  else
    match rest with
    | [] => failure
    | next :: more => do
        let (following, left) ← mergeList step true following (next :: more)
        have hleft := Nat.lt_succ_of_le left.2
        let (following, left') ← settle step current following left.1
        return (following, left'.widen (Nat.le_of_lt hleft))
termination_by (rest.length, 1)
decreasing_by
  · simp_wf
    exact .right _ Nat.zero_lt_one
  · simp_wf
    exact .left _ _ hleft

end

/-- Merges the operands of a row into one; none when the row is empty or does not end where its
operators end. -/
def mergeRow (step : α → Operator → α → m α) : List (Placed α) → OptionT m α
  | [] => failure
  | first :: rest => do
      let (merged, _) ← mergeList step false first rest
      return merged.operand

end MapAlgebra.Expression
