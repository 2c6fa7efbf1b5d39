import Mathlib.Data.List.Basic
import MapAlgebra.Expression.Merging

/-!
# The tree behind merging

Merging a row of operands makes no tree, yet it carries out the merges of one: the tree that comes
from dividing the row at the last of its operators of lowest priority, again and again. Operands
are merged in the order of that tree, the parts of a merge before it and the left before the right.
-/

namespace MapAlgebra.Expression

variable {m : Type → Type} [Monad m] {α β : Type}

/-- A tree of merges. -/
inductive Merging (α : Type)
  | operand (a : α)
  | merge (left : Merging α) (op : Operator) (right : Merging α)

namespace Merging

/-- Carries the merges out, the parts of a merge before the merge and the left before the right. -/
def reduce (step : α → Operator → α → m α) : Merging α → m α
  | operand a => pure a
  | merge left op right => do
      let a ← left.reduce step
      let b ← right.reduce step
      step a op b

def map (f : α → β) : Merging α → Merging β
  | operand a => operand (f a)
  | merge left op right => merge (left.map f) op (right.map f)

/-- The number of merges. -/
def count : Merging α → Nat
  | operand _ => 0
  | merge left _ right => left.count + right.count + 1

/-- The leftmost operand. -/
def first : Merging α → α
  | operand a => a
  | merge left _ _ => left.first

/-- The other operands from left to right, each behind its operator. -/
def rest : Merging α → List (Operator × α)
  | operand _ => []
  | merge left op right => left.rest ++ (op, right.first) :: right.rest

/-- Operators bind at least as strongly as one below which they are on the left, and more strongly
than one below which they are on the right. -/
def Respects : Merging α → Prop
  | operand _ => True
  | merge left op right =>
      left.Respects ∧ right.Respects ∧
        (∀ item ∈ left.rest, op.priority ≤ item.1.priority) ∧
        ∀ item ∈ right.rest, op.priority < item.1.priority

/-- A property of operators holds in a merge when it holds on both sides and of the operator. -/
theorem forall_mem_rest_merge {left right : Merging α} {op : Operator} {p : Operator → Prop}
    (hleft : ∀ item ∈ left.rest, p item.1) (hop : p op) (hright : ∀ item ∈ right.rest, p item.1) :
    ∀ item ∈ (merge left op right).rest, p item.1 := by
  intro item hitem
  rcases List.mem_append.mp hitem with hitem | hitem
  · exact hleft item hitem
  · rcases List.mem_cons.mp hitem with rfl | hitem
    · exact hop
    · exact hright item hitem

theorem count_eq_length_rest (tree : Merging α) : tree.count = tree.rest.length := by
  induction tree with
  | operand a => rfl
  | merge left op right ihl ihr =>
      simp only [count, rest, List.length_append, List.length_cons, ihl, ihr]
      omega

end Merging

/-- A row divided at the last of its operators of lowest priority: what is in front of it, the
operator with the operand behind it, and what is behind those. -/
def weakest? : List (Operator × α) → Option (List (Operator × α) × (Operator × α) ×
    List (Operator × α))
  | [] => none
  | item :: rest =>
      match weakest? rest with
      | none => some ([], item, [])
      | some (before, least, after) =>
          if least.1.priority ≤ item.1.priority then some (item :: before, least, after)
          else some ([], item, rest)

theorem weakest?_eq_none {row : List (Operator × α)} (h : weakest? row = none) : row = [] := by
  cases row with
  | nil => rfl
  | cons item rest =>
      unfold weakest? at h
      split at h
      next => cases h
      next => split at h <;> cases h

theorem eq_of_weakest? {row before after : List (Operator × α)} {least : Operator × α}
    (h : weakest? row = some (before, least, after)) : row = before ++ least :: after := by
  induction row generalizing before with
  | nil => cases h
  | cons item rest ih =>
      unfold weakest? at h
      split at h
      next hnone =>
        cases h
        rw [weakest?_eq_none hnone]
        rfl
      next before' least' after' hsome =>
        split at h
        next =>
          cases h
          rw [ih hsome]
          rfl
        next =>
          cases h
          rfl

/-- An operator is the last of lowest priority when those in front of it are at least as strong and
those behind it are stronger. -/
theorem weakest?_append {before after : List (Operator × α)} {least : Operator × α}
    (hbefore : ∀ item ∈ before, least.1.priority ≤ item.1.priority)
    (hafter : ∀ item ∈ after, least.1.priority < item.1.priority) :
    weakest? (before ++ least :: after) = some (before, least, after) := by
  induction before with
  | nil =>
      rw [List.nil_append, weakest?]
      split
      next hnone => rw [weakest?_eq_none hnone]
      next before' least' after' hsome =>
        have hmem : least' ∈ after := by
          rw [eq_of_weakest? hsome]
          exact List.mem_append_right _ List.mem_cons_self
        rw [if_neg (Nat.not_le.mpr (hafter least' hmem))]
  | cons item before ih =>
      rw [List.cons_append, weakest?, ih fun other h => hbefore other (List.mem_cons_of_mem _ h)]
      exact if_pos (hbefore item List.mem_cons_self)

/-- The tree of a row: an operand alone, or a merge by the last of the operators of lowest priority
of the trees of the parts on both sides of it. -/
def bySplitting (first : α) (row : List (Operator × α)) : Merging α :=
  match _h : weakest? row with
  | none => .operand first
  | some (before, (op, a), after) => .merge (bySplitting first before) op (bySplitting a after)
termination_by row.length
decreasing_by
  all_goals
    rw [eq_of_weakest? _h, List.length_append, List.length_cons]
    omega

theorem bySplitting_nil (first : α) : bySplitting first [] = .operand first := by
  rw [bySplitting]
  rfl

theorem bySplitting_of_weakest? {first : α} {row before after : List (Operator × α)}
    {op : Operator} {a : α} (h : weakest? row = some (before, (op, a), after)) :
    bySplitting first row = .merge (bySplitting first before) op (bySplitting a after) := by
  rw [bySplitting]
  split
  next hnone => rw [h] at hnone; cases hnone
  next hsome => rw [h] at hsome; cases hsome; rfl

theorem bySplitting_append {first : α} {before after : List (Operator × α)} {op : Operator} {a : α}
    (hbefore : ∀ item ∈ before, op.priority ≤ item.1.priority)
    (hafter : ∀ item ∈ after, op.priority < item.1.priority) :
    bySplitting first (before ++ (op, a) :: after) =
      .merge (bySplitting first before) op (bySplitting a after) :=
  bySplitting_of_weakest? (weakest?_append hbefore hafter)

theorem first_bySplitting (first : α) (row : List (Operator × α)) :
    (bySplitting first row).first = first := by
  induction first, row using bySplitting.induct with
  | case1 first row hnone =>
      rw [weakest?_eq_none hnone, bySplitting_nil]
      rfl
  | case2 first row before op a after hsome ihbefore ihafter =>
      rw [bySplitting_of_weakest? hsome, Merging.first, ihbefore]

theorem rest_bySplitting (first : α) (row : List (Operator × α)) :
    (bySplitting first row).rest = row := by
  induction first, row using bySplitting.induct with
  | case1 first row hnone =>
      rw [weakest?_eq_none hnone, bySplitting_nil]
      rfl
  | case2 first row before op a after hsome ihbefore ihafter =>
      rw [bySplitting_of_weakest? hsome, Merging.rest, ihbefore, ihafter, first_bySplitting,
        eq_of_weakest? hsome]

/-- There is one tree that respects priorities over a row. -/
theorem Merging.Respects.eq_bySplitting {tree : Merging α} (h : tree.Respects) :
    tree = bySplitting tree.first tree.rest := by
  induction tree with
  | operand a => exact (bySplitting_nil a).symm
  | merge left op right ihl ihr =>
      obtain ⟨hleft, hright, hbefore, hafter⟩ := h
      rw [Merging.first, Merging.rest, bySplitting_append hbefore hafter, ← ihl hleft, ← ihr hright]

/-- Every operand but the last has an operator behind it, and the last has none. -/
def IsRow : List (Placed α) → Prop
  | [] => False
  | [last] => last.action = none
  | item :: next :: more => item.action ≠ none ∧ IsRow (next :: more)

/-- The operands of a rest, each behind the operator in front of it. The first of these operators
is the action of the operand before the rest. -/
def joins : Option Operator → List (Placed α) → List (Operator × α)
  | some op, item :: rest => (op, item.operand) :: joins item.action rest
  | _, _ => []

theorem IsRow.tail {item next : Placed α} {more : List (Placed α)}
    (h : IsRow (item :: next :: more)) : IsRow (next :: more) :=
  h.2

theorem IsRow.replace_head {a b : α} {action : Option Operator} {rest : List (Placed α)}
    (h : IsRow (⟨a, action⟩ :: rest)) : IsRow (⟨b, action⟩ :: rest) := by
  cases rest with
  | nil => exact h
  | cons next more => exact h

theorem exists_placed_of_mem_joins {action : Option Operator} {items : List (Placed α)}
    {item : Operator × α} (h : item ∈ joins action items) :
    ∃ placed ∈ items, placed.operand = item.2 := by
  induction items generalizing action with
  | nil => cases action <;> cases h
  | cons first rest ih =>
      cases action with
      | none => cases h
      | some op =>
          rcases List.mem_cons.mp h with rfl | h
          · exact ⟨first, List.mem_cons_self, rfl⟩
          · obtain ⟨placed, hmem, hplaced⟩ := ih h
            exact ⟨placed, List.mem_cons_of_mem _ hmem, hplaced⟩

theorem IsRow.length_joins {item : Placed α} {rest : List (Placed α)} (h : IsRow (item :: rest)) :
    (joins item.action rest).length = rest.length := by
  induction rest generalizing item with
  | nil => cases item.action <;> rfl
  | cons next more ih =>
      obtain ⟨op, hop⟩ := Option.ne_none_iff_exists'.mp h.1
      rw [hop, joins, List.length_cons, List.length_cons, ih h.2]

section Loop

variable (step : α → Operator → α → m α)

theorem mergeList_nil (once : Bool) (current : Placed α) :
    mergeList step once current [] = pure (current, ⟨[], Nat.le_refl 0⟩) := by
  rw [mergeList]

/-- Merging once settles the following operand and takes one step. -/
theorem mergeList_once (a : α) (op : Operator) (following : Placed α) (rest : List (Placed α)) :
    mergeList step true ⟨a, some op⟩ (following :: rest) = (do
      let (following, left) ← settle step ⟨a, some op⟩ following rest
      let merged ← step a op following.operand
      return (⟨merged, following.action⟩, left)) := by
  rw [mergeList]
  rfl

theorem mergeList_all (a : α) (op : Operator) (following : Placed α) (rest : List (Placed α)) :
    mergeList step false ⟨a, some op⟩ (following :: rest) = (do
      let (following, left) ← settle step ⟨a, some op⟩ following rest
      let merged ← step a op following.operand
      let (merged, left') ← mergeList step false ⟨merged, following.action⟩ left.1
      return (merged, left'.widen (Nat.le_trans (Nat.pred_le _) left.2))) := by
  rw [mergeList]
  rfl

theorem settle_of_canMerge {current following : Placed α} {rest : List (Placed α)}
    (h : current.canMerge following) :
    settle step current following rest = pure (following, ⟨rest, Nat.le_refl _⟩) := by
  rw [settle.eq_def]
  exact if_pos h

theorem settle_of_not_canMerge {current following next : Placed α} {more : List (Placed α)}
    (h : ¬ current.canMerge following) :
    settle step current following (next :: more) = (do
      let (following, left) ← mergeList step true following (next :: more)
      let (following, left') ← settle step current following left.1
      return (following, left'.widen (Nat.le_succ_of_le left.2))) := by
  rw [settle.eq_def]
  exact if_neg h

/-- Settling an operand that stands for the tree `tree` makes the tree `settled` of the operators
that bind more strongly than `op`, and stops in front of the first one that does not, `action'`.
Which tree it is depends on the operators alone, so it is the same for all results `a` of the
current operand. -/
structure Settles (op : Operator) (tree : Merging α) (x : α) (action : Option Operator)
    (rest : List (Placed α)) (settled : Merging α) (action' : Option Operator)
    (left : Left α rest.length) : Prop where
  respects : settled.Respects
  first : settled.first = tree.first
  below : ∀ item ∈ settled.rest, op.priority < item.1.priority
  stops : (Placed.mk x action').priority ≤ op.priority
  sequence : tree.rest ++ joins action rest = settled.rest ++ joins action' left.1
  row : IsRow (⟨x, action'⟩ :: left.1)
  runs : ∀ a : α, (liftM (tree.reduce step) >>= fun b =>
      settle step ⟨a, some op⟩ ⟨b, action⟩ rest) =
    liftM (settled.reduce step) >>= fun b => pure (⟨b, action'⟩, left)

variable {step} {op stronger : Operator} {tree right settled : Merging α} {x : α}
  {action action₁ action' : Option Operator} {next : Placed α} {rest more : List (Placed α)}
  {left₁ : Left α more.length}

theorem settles_of_canMerge [LawfulMonad m] (hrow : IsRow (⟨x, action⟩ :: rest))
    (htree : tree.Respects) (hop : ∀ item ∈ tree.rest, op.priority < item.1.priority)
    (hstops : (Placed.mk x action).priority ≤ op.priority) :
    Settles step op tree x action rest tree action ⟨rest, Nat.le_refl _⟩ := by
  refine ⟨htree, rfl, hop, hstops, rfl, hrow, fun a => ?_⟩
  have hcan (b : α) : (Placed.mk a (some op)).canMerge ⟨b, action⟩ := decide_eq_true hstops
  simp only [settle_of_canMerge step (hcan _)]

/-- Settling the first operand of a row behind the operator of another one. -/
theorem Settles.settle_eq [LawfulMonad m] (h : Settles step op (.operand next.operand) next.operand
      next.action more right action₁ left₁) (a : α) :
    settle step ⟨a, some op⟩ next more =
      liftM (right.reduce step) >>= fun b => pure (⟨b, action₁⟩, left₁) := by
  rw [← h.runs a]
  simp [Merging.reduce]

/-- Where an operator binds more strongly, its right side is settled first and merged in by one
step. What is merged so far takes the place of the operand that is settled. -/
theorem Settles.merge_in [LawfulMonad m]
    (hright : Settles step stronger (.operand next.operand) next.operand next.action more right
      action₁ left₁) {left : Left α left₁.1.length}
    (h : Settles step op (tree.merge stronger right) x action₁ left₁.1 settled action' left)
    (hless : op.priority < stronger.priority) :
    Settles step op tree x (some stronger) (next :: more) settled action'
      (left.widen (Nat.le_succ_of_le left₁.2)) where
  respects := h.respects
  first := h.first
  below := h.below
  stops := h.stops
  row := h.row
  sequence := by
    have hfirst : right.first = next.operand := hright.first
    have hrest : joins next.action more =
        right.rest ++ joins action₁ left₁.1 := hright.sequence
    show _ = settled.rest ++ joins action' left.1
    rw [← h.sequence, joins, Merging.rest, hfirst, hrest]
    simp only [List.append_assoc, List.cons_append]
  runs a := by
    have hcan (b : α) : ¬ (Placed.mk a (some op)).canMerge ⟨b, some stronger⟩ :=
      fun hcan => absurd (of_decide_eq_true hcan) (Nat.not_le.mpr hless)
    have hstep : (liftM (tree.reduce step) >>= fun b =>
          mergeList step true ⟨b, some stronger⟩ (next :: more)) =
        liftM ((tree.merge stronger right).reduce step) >>= fun b =>
          pure (⟨b, action₁⟩, left₁) := by
      simp only [mergeList_once, hright.settle_eq, Merging.reduce, liftM_bind, bind_assoc,
        pure_bind]
    calc
      _ = (liftM (tree.reduce step) >>= fun b =>
            mergeList step true ⟨b, some stronger⟩ (next :: more)) >>= fun found => do
              let (following, left') ← settle step ⟨a, some op⟩ found.1 found.2.1
              return (following, left'.widen (Nat.le_succ_of_le found.2.2)) := by
        simp only [settle_of_not_canMerge step (hcan _), bind_assoc]
      _ = (liftM ((tree.merge stronger right).reduce step) >>= fun b =>
            settle step ⟨a, some op⟩ ⟨b, action₁⟩ left₁.1) >>= fun found =>
              pure (found.1, found.2.widen (Nat.le_succ_of_le left₁.2)) := by
        rw [hstep]
        simp only [bind_assoc, pure_bind]
      _ = _ := by
        rw [h.runs a]
        simp only [bind_assoc, pure_bind]

/-- What binds more strongly than an operator still does when the right side of a stronger one has
been merged in. -/
theorem Settles.below_merge (hright : Settles step stronger (.operand next.operand) next.operand
      next.action more right action₁ left₁) (hless : op.priority < stronger.priority)
    (hop : ∀ item ∈ tree.rest, op.priority < item.1.priority) :
    ∀ item ∈ (tree.merge stronger right).rest, op.priority < item.1.priority :=
  Merging.forall_mem_rest_merge (p := fun o => op.priority < o.priority) hop hless
    fun item h => Nat.lt_trans hless (hright.below item h)

/-- The operator behind the right side of a stronger one binds no more strongly than what has been
merged. -/
theorem Settles.stops_merge (hright : Settles step stronger (.operand next.operand) next.operand
      next.action more right action₁ left₁)
    (haction : ∀ item ∈ tree.rest, stronger.priority ≤ item.1.priority) :
    ∀ item ∈ (tree.merge stronger right).rest,
      (Placed.mk x action₁).priority ≤ item.1.priority :=
  Merging.forall_mem_rest_merge (p := fun o => (Placed.mk x action₁).priority ≤ o.priority)
    (fun item h => Nat.le_trans hright.stops (haction item h)) hright.stops
    fun item h => Nat.le_trans hright.stops (Nat.le_of_lt (hright.below item h))

variable (step)

/-- Every operand of a row can be settled. -/
theorem exists_settled [LawfulMonad m] (most : Nat) (op : Operator) (tree : Merging α) (x : α)
    (action : Option Operator) (rest : List (Placed α)) (hmost : rest.length ≤ most)
    (hrow : IsRow (⟨x, action⟩ :: rest)) (htree : tree.Respects)
    (hop : ∀ item ∈ tree.rest, op.priority < item.1.priority)
    (haction : ∀ item ∈ tree.rest, (Placed.mk x action).priority ≤ item.1.priority) :
    ∃ settled action' left, Settles step op tree x action rest settled action' left := by
  -- The induction is on a bound of the length, since what is left behind the right side of a
  -- stronger operator is no tail of the row that is known beforehand.
  induction most generalizing op tree x action rest with
  | zero =>
      cases rest with
      | cons next more => simp at hmost
      | nil =>
        have hnone : action = none := hrow
        subst hnone
        exact ⟨tree, none, _, settles_of_canMerge hrow htree hop (Nat.zero_le _)⟩
  | succ most ih =>
    by_cases hstops : (Placed.mk x action).priority ≤ op.priority
    · exact ⟨tree, action, _, settles_of_canMerge hrow htree hop hstops⟩
    · obtain ⟨stronger, rfl⟩ : ∃ stronger, action = some stronger := by
        cases action with
        | none => exact absurd (Nat.zero_le _) hstops
        | some stronger => exact ⟨stronger, rfl⟩
      have hless : op.priority < stronger.priority := Nat.not_le.mp hstops
      cases rest with
      | nil => cases hrow
      | cons next more =>
        have hmore : more.length ≤ most := Nat.le_of_succ_le_succ hmost
        obtain ⟨right, action₁, left₁, hright⟩ :=
          ih stronger (.operand next.operand) next.operand next.action more hmore hrow.tail trivial
            (fun item h => by cases h) (fun item h => by cases h)
        have hmerged : (tree.merge stronger right).Respects :=
          ⟨htree, hright.respects, haction, hright.below⟩
        obtain ⟨settled, action', left, hsettled⟩ :=
          ih op (tree.merge stronger right) x action₁ left₁.1 (Nat.le_trans left₁.2 hmore)
            hright.row.replace_head hmerged (hright.below_merge hless hop)
            (hright.stops_merge haction)
        exact ⟨settled, action', _, hright.merge_in hsettled hless⟩

/-- Merging all of a row into an operand that stands for a tree gives the tree of the row. -/
theorem exists_merged [LawfulMonad m] (most : Nat) (tree : Merging α) (x : α)
    (action : Option Operator) (rest : List (Placed α)) (hmost : rest.length ≤ most)
    (hrow : IsRow (⟨x, action⟩ :: rest)) (htree : tree.Respects)
    (haction : ∀ item ∈ tree.rest, (Placed.mk x action).priority ≤ item.1.priority) :
    ∃ (merged : Merging α) (left : Left α (rest.length - 1)),
      merged.Respects ∧ merged.first = tree.first ∧
      merged.rest = tree.rest ++ joins action rest ∧
      (liftM (tree.reduce step) >>= fun a => mergeList step false ⟨a, action⟩ rest) =
        liftM (merged.reduce step) >>= fun a => pure (⟨a, none⟩, left) := by
  induction most generalizing tree x action rest with
  | zero =>
      have hnil : rest = [] := List.length_eq_zero_iff.mp (Nat.le_zero.mp hmost)
      subst hnil
      have hnone : action = none := hrow
      subst hnone
      refine ⟨tree, ⟨[], Nat.le_refl _⟩, htree, rfl, (List.append_nil _).symm, ?_⟩
      simp only [mergeList_nil]
  | succ most ih =>
      cases rest with
      | nil =>
        exact ih tree x action [] (Nat.zero_le _) hrow htree haction
      | cons next more =>
        obtain ⟨op, rfl⟩ : ∃ op, action = some op := Option.ne_none_iff_exists'.mp hrow.1
        obtain ⟨right, action₁, left₁, hright⟩ :=
          exists_settled step more.length op (.operand next.operand) next.operand next.action more
            (Nat.le_refl _) hrow.tail trivial (fun item h => by cases h) (fun item h => by cases h)
        obtain ⟨merged, left, hmerged, hfirst', hrest', hrun⟩ :=
          ih (tree.merge op right) x action₁ left₁.1
            (Nat.le_trans left₁.2 (Nat.le_of_succ_le_succ hmost)) hright.row.replace_head
            ⟨htree, hright.respects, haction, hright.below⟩ (hright.stops_merge haction)
        refine ⟨merged, left.widen (Nat.le_trans (Nat.pred_le _) left₁.2), hmerged, hfirst', ?_, ?_⟩
        · have hfirst : right.first = next.operand := hright.first
          have hrest : joins next.action more =
              right.rest ++ joins action₁ left₁.1 := hright.sequence
          rw [hrest', joins, Merging.rest, hfirst, hrest]
          simp only [List.append_assoc, List.cons_append]
        · calc
            _ = (liftM ((tree.merge op right).reduce step) >>= fun a =>
                  mergeList step false ⟨a, action₁⟩ left₁.1) >>= fun found =>
                    pure (found.1, found.2.widen (Nat.le_trans (Nat.pred_le _) left₁.2)) := by
              simp only [mergeList_all, hright.settle_eq, Merging.reduce, liftM_bind, bind_assoc,
                pure_bind]
            _ = _ := by
              rw [hrun]
              simp only [bind_assoc, pure_bind]

/-- A row is always merged to its end, and the merges are those of its tree. -/
theorem mergeRow_eq_bySplitting [LawfulMonad m] {item : Placed α} {rest : List (Placed α)}
    (hrow : IsRow (item :: rest)) :
    mergeRow step (item :: rest) =
      liftM ((bySplitting item.operand (joins item.action rest)).reduce step) := by
  obtain ⟨merged, left, hmerged, hfirst, hrest, hrun⟩ :=
    exists_merged step rest.length (.operand item.operand) item.operand item.action rest
      (Nat.le_refl _) hrow trivial (fun item h => by cases h)
  have htree : merged = bySplitting item.operand (joins item.action rest) := by
    have heq := hmerged.eq_bySplitting
    rw [hfirst, hrest] at heq
    exact heq
  have hlist : mergeList step false item rest =
      liftM (merged.reduce step) >>= fun a => pure (⟨a, none⟩, left) := by
    rw [← hrun]
    simp [Merging.reduce]
  rw [mergeRow, hlist, ← htree]
  simp only [bind_assoc, pure_bind, bind_pure]

end Loop

end MapAlgebra.Expression
