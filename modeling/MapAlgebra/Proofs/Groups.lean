import Mathlib.Data.List.SplitBy
import MapAlgebra.Grid.Scale

/-!
# Cells that fall in one new cell

The cells of a grid are sorted by the number of their new cell and cut where the number changes.
Each run then has all cells of one number, in the order in which they came, and every cell is in a
run. Written one after the other, the runs leave in each new cell the aggregate of its own cells,
and NoData in those that have none.
-/

namespace MapAlgebra.Grid

variable {V : Type}

section Runs

variable {members run : List (Member V)} {first : Member V} {rest : List (Member V)}

/-- The members with a number, in the order in which they come. -/
def group (members : List (Member V)) (k : ℤ) : List (Member V) :=
  members.filter fun member => member.target == k

theorem Member.le_trans (a b c : Member V) (hab : decide (a.target ≤ b.target) = true)
    (hbc : decide (b.target ≤ c.target) = true) : decide (a.target ≤ c.target) = true := by
  simp only [decide_eq_true_eq] at *
  omega

theorem Member.le_total (a b : Member V) :
    (decide (a.target ≤ b.target) || decide (b.target ≤ a.target)) = true := by
  simp only [Bool.or_eq_true, decide_eq_true_eq]
  omega

/-- Members in ascending order of their numbers. -/
abbrev sorted (members : List (Member V)) : List (Member V) :=
  members.mergeSort fun a b => a.target ≤ b.target

theorem pairwise_sorted (members : List (Member V)) :
    (sorted members).Pairwise fun a b => a.target ≤ b.target :=
  (List.pairwise_mergeSort Member.le_trans Member.le_total members).imp of_decide_eq_true

/-- Sorting keeps the order of members with one number. -/
theorem group_sorted (members : List (Member V)) (k : ℤ) :
    group (sorted members) k = group members k := by
  have hperm : (sorted members).Perm members := List.mergeSort_perm _ _
  have hsame : (group members k).Pairwise fun a b => decide (a.target ≤ b.target) := by
    refine List.pairwise_of_forall_mem_list fun a ha b hb => decide_eq_true ?_
    have hleft := (List.mem_filter.mp ha).2
    have hright := (List.mem_filter.mp hb).2
    simp only [beq_iff_eq] at hleft hright
    omega
  have hsublist : (group members k).Sublist (sorted members) :=
    List.sublist_mergeSort Member.le_trans Member.le_total hsame List.filter_sublist
  have hkept := hsublist.filter fun member => member.target == k
  have htwice : (group members k).filter (fun member => member.target == k) = group members k := by
    unfold group
    rw [List.filter_filter]
    simp only [Bool.and_self]
  rw [htwice] at hkept
  exact (hkept.eq_of_length (hperm.filter _).length_eq.symm).symm

theorem flatten_runs (members : List (Member V)) : (runs members).flatten = sorted members :=
  List.flatten_splitBy _ _

/-- The members of a run have one number. -/
theorem target_eq_of_mem_run (h : run ∈ runs members) {a b : Member V} (ha : a ∈ run)
    (hb : b ∈ run) : a.target = b.target := by
  let R (a b : Member V) : Prop := a.target = b.target
  have hequal : run.IsChain R :=
    (List.isChain_of_mem_splitBy h).imp fun a b hab => beq_iff_eq.mp hab
  have : Trans R R R := ⟨Eq.trans⟩
  have : Std.Symm R := ⟨fun _ _ => Eq.symm⟩
  exact List.Pairwise.forall_of_forall (R := R) (fun _ _ => rfl) hequal.pairwise ha hb

/-- Runs that are sorted, and cut where the number changes, have ascending numbers. -/
theorem pairwise_lt_of_cut {cut : List (List (Member V))}
    (hsame : ∀ run ∈ cut, ∀ a ∈ run, ∀ b ∈ run, a.target = b.target)
    (hcut : cut.IsChain fun a b => ∃ (ha : a ≠ []) (hb : b ≠ []),
      (a.getLast ha).target ≠ (b.head hb).target)
    (hsorted : cut.Pairwise fun a b => ∀ x ∈ a, ∀ y ∈ b, x.target ≤ y.target) :
    cut.Pairwise fun a b => ∀ x ∈ a, ∀ y ∈ b, x.target < y.target := by
  induction cut with
  | nil => exact .nil
  | cons run cut ih =>
      obtain ⟨hrun, hrest⟩ := List.pairwise_cons.mp hsorted
      refine .cons (fun later hlater x hx y hy => ?_)
        (ih (fun other hother => hsame other (List.mem_cons_of_mem _ hother)) hcut.tail hrest)
      cases cut with
      | nil => cases hlater
      | cons next cut =>
          -- the number changes from the run to the next one, and does not decrease behind it
          obtain ⟨⟨hlast, hhead, hdiffer⟩, -⟩ := List.isChain_cons_cons.mp hcut
          have hx' := hsame run List.mem_cons_self x hx _ (List.getLast_mem hlast)
          have hstep := hrun next List.mem_cons_self _ (List.getLast_mem hlast) _
            (List.head_mem hhead)
          have hy' : (next.head hhead).target ≤ y.target := by
            rcases List.mem_cons.mp hlater with rfl | hlater
            · exact Int.le_of_eq (hsame later (by simp) _ (List.head_mem hhead) y hy)
            · exact (List.pairwise_cons.mp hrest).1 later hlater _ (List.head_mem hhead) y hy
          omega

theorem pairwise_runs (members : List (Member V)) :
    (runs members).Pairwise fun a b => ∀ x ∈ a, ∀ y ∈ b, x.target < y.target := by
  refine pairwise_lt_of_cut (fun run hrun a ha b hb => target_eq_of_mem_run hrun ha hb) ?_ ?_
  · refine (List.isChain_getLast_head_splitBy _ _).imp fun a b hdiffer => ?_
    obtain ⟨ha, hb, hdiffer⟩ := hdiffer
    exact ⟨ha, hb, fun heq => absurd (beq_iff_eq.mpr heq) (by simp [hdiffer])⟩
  · have hsorted := pairwise_sorted members
    rw [← flatten_runs] at hsorted
    exact (List.pairwise_flatten.mp hsorted).2

/-- A run has all members with its number, in the order in which they came. -/
theorem eq_group_of_mem_runs (h : first :: rest ∈ runs members) :
    first :: rest = group members first.target := by
  obtain ⟨before, after, hruns⟩ := List.append_of_mem h
  have hpairwise := pairwise_runs members
  rw [hruns] at hpairwise
  obtain ⟨-, hafter, hbefore⟩ := List.pairwise_append.mp hpairwise
  have hafter := (List.pairwise_cons.mp hafter).1
  have hnone {runs : List (List (Member V))}
      (hruns : ∀ run ∈ runs, ∀ x ∈ run, x.target ≠ first.target) :
      group runs.flatten first.target = [] := by
    refine List.filter_eq_nil_iff.mpr fun x hx => ?_
    obtain ⟨run, hrun, hx⟩ := List.mem_flatten.mp hx
    simpa using hruns run hrun x hx
  have hown : group (first :: rest) first.target = first :: rest :=
    List.filter_eq_self.mpr fun x hx => by
      simpa using target_eq_of_mem_run h hx List.mem_cons_self
  have hall := group_sorted members first.target
  rw [← flatten_runs, hruns, List.flatten_append, List.flatten_cons] at hall
  unfold group at hall hnone hown ⊢
  rw [List.filter_append, List.filter_append, hown, hnone, hnone] at hall
  · simpa using hall
  · exact fun run hrun x hx => Int.ne_of_gt (hafter run hrun first List.mem_cons_self x hx)
  · exact fun run hrun x hx =>
      Int.ne_of_lt (hbefore run hrun _ List.mem_cons_self x hx first List.mem_cons_self)

/-- Every member is in a run. -/
theorem exists_run {member : Member V} (h : member ∈ members) :
    ∃ run ∈ runs members, member ∈ run := by
  have hmem : member ∈ (runs members).flatten := by
    rw [flatten_runs]
    exact List.mem_mergeSort.mpr h
  exact List.mem_flatten.mp hmem

end Runs

section Writing

variable [Number V] {size : ℕ} {aggregate : Aggregate} {nodata : V}
variable {members : List (Member V)}

/-- The aggregate of values, and NoData without values. -/
def aggregateOr (aggregate : Aggregate) (nodata : V) : List V → V
  | [] => nodata
  | value :: rest => aggregate.apply (value :: rest)

/-- The number of a new cell: the aggregate of its members, and NoData without members. -/
def gathered (aggregate : Aggregate) (nodata : V) (members : List (Member V)) (k : ℤ) : V :=
  aggregateOr aggregate nodata (taken aggregate (group members k))

/-- A run leaves in its new cell what is gathered there, if nothing else was there than that or
NoData, and changes no other one. -/
theorem exists_write? {values : Vector V size} {run : List (Member V)} (hrun : run ∈ runs members)
    (hin : ∀ member ∈ run, 0 ≤ member.target ∧ member.target < size)
    (hvalues : ∀ k : Fin size,
      values.get k = nodata ∨ values.get k = gathered aggregate nodata members k) :
    ∃ out, write? aggregate values run = some out ∧
      ∀ k : Fin size, ((∃ member ∈ run, member.target = k) →
          out.get k = gathered aggregate nodata members k) ∧
        ((∀ member ∈ run, member.target ≠ k) → out.get k = values.get k) := by
  cases run with
  | nil => exact absurd hrun (List.nil_notMem_splitBy _ _)
  | cons first rest =>
      obtain ⟨hlow, hhigh⟩ := hin first List.mem_cons_self
      have hgroup := eq_group_of_mem_runs hrun
      have htarget {k : Fin size} (h : ∃ member ∈ first :: rest, member.target = k) :
          first.target = k := by
        obtain ⟨member, hmember, hk⟩ := h
        exact (target_eq_of_mem_run hrun List.mem_cons_self hmember).trans hk
      cases htaken : taken aggregate (first :: rest) with
      | nil =>
          refine ⟨values, ?_, fun k => ⟨fun h => ?_, fun _ => rfl⟩⟩
          · unfold write?
            rw [htaken]
          · have hnone : gathered aggregate nodata members k = nodata := by
              unfold gathered
              rw [← htarget h, ← hgroup, htaken]
              rfl
            exact (hvalues k).elim (fun h => h.trans hnone.symm) id
      | cons value others =>
          have hplace : 0 ≤ first.target ∧ first.target < size := ⟨hlow, hhigh⟩
          refine ⟨values.set first.target.toNat (aggregate.apply (value :: others)) (by omega), ?_,
            fun k => ⟨fun h => ?_, fun h => ?_⟩⟩
          · unfold write?
            simp only [htaken, if_neg (Int.not_lt.mpr hlow)]
            rw [dif_pos hplace]
          · have hk : first.target.toNat = k := by have := htarget h; omega
            unfold gathered
            rw [← htarget h, ← hgroup, htaken]
            exact (Vector.getElem_set _ _).trans (if_pos hk)
          · have hk : first.target.toNat ≠ k := by
              have := h first List.mem_cons_self
              omega
            exact (Vector.getElem_set _ _).trans (if_neg hk)

/-- Runs that are written one after the other leave in their new cells what is gathered there. -/
theorem exists_writes {pending : List (List (Member V))} (hpending : pending ⊆ runs members)
    (hin : ∀ member ∈ members, 0 ≤ member.target ∧ member.target < size)
    {values : Vector V size} (hvalues : ∀ k : Fin size,
      values.get k = nodata ∨ values.get k = gathered aggregate nodata members k) :
    ∃ out, pending.foldlM (write? aggregate) values = some out ∧
      ∀ k : Fin size, ((∃ run ∈ pending, ∃ member ∈ run, member.target = k) →
          out.get k = gathered aggregate nodata members k) ∧
        ((∀ run ∈ pending, ∀ member ∈ run, member.target ≠ k) → out.get k = values.get k) := by
  induction pending generalizing values with
  | nil => exact ⟨values, rfl, fun k => ⟨by simp, fun _ => rfl⟩⟩
  | cons run pending ih =>
      obtain ⟨hrun, hrest⟩ := List.cons_subset.mp hpending
      have hmembers : ∀ member ∈ run, member ∈ members := fun member hmember => by
        have hflat := List.mem_flatten.mpr ⟨run, hrun, hmember⟩
        rw [flatten_runs] at hflat
        exact List.mem_mergeSort.mp hflat
      obtain ⟨written, hwritten, hget⟩ :=
        exists_write? hrun (fun member hmember => hin member (hmembers member hmember)) hvalues
      have hkept : ∀ k : Fin size,
          written.get k = nodata ∨ written.get k = gathered aggregate nodata members k := by
        intro k
        by_cases hhit : ∃ member ∈ run, member.target = k
        · exact .inr ((hget k).1 hhit)
        · push Not at hhit
          rw [(hget k).2 hhit]
          exact hvalues k
      obtain ⟨out, hout, hgetOut⟩ := ih hrest hkept
      refine ⟨out, ?_, fun k => ⟨fun hhit => ?_, fun hnone => ?_⟩⟩
      · rw [List.foldlM_cons, hwritten]
        exact hout
      · by_cases hlater : ∃ run ∈ pending, ∃ member ∈ run, member.target = k
        · exact (hgetOut k).1 hlater
        · -- no later run writes there again
          obtain ⟨other, hother, hmember⟩ := hhit
          rcases List.mem_cons.mp hother with rfl | hother
          · push Not at hlater
            exact ((hgetOut k).2 hlater).trans ((hget k).1 hmember)
          · exact absurd ⟨other, hother, hmember⟩ hlater
      · rw [(hgetOut k).2 fun other hother => hnone other (List.mem_cons_of_mem _ hother)]
        exact (hget k).2 (hnone run List.mem_cons_self)

/-- All runs written to cells without data leave in each new cell what is gathered there. -/
theorem exists_written (aggregate : Aggregate) (nodata : V)
    (hin : ∀ member ∈ members, 0 ≤ member.target ∧ member.target < size) :
    ∃ out, (runs members).foldlM (write? aggregate) (Vector.replicate size nodata) = some out ∧
      ∀ k : Fin size, out.get k = gathered aggregate nodata members k := by
  have hempty (k : Fin size) : (Vector.replicate size nodata).get k = nodata :=
    Vector.getElem_replicate k.isLt
  obtain ⟨out, hout, hget⟩ := exists_writes (List.Subset.refl _) hin
    fun k => .inl (hempty k)
  refine ⟨out, hout, fun k => ?_⟩
  by_cases hhit : ∃ run ∈ runs members, ∃ member ∈ run, member.target = k
  · exact (hget k).1 hhit
  · push Not at hhit
    have hnone : group members k = [] := List.filter_eq_nil_iff.mpr fun member hmember => by
      obtain ⟨run, hrun, hmember⟩ := exists_run hmember
      simpa using hhit run hrun member hmember
    rw [(hget k).2 hhit, hempty]
    unfold gathered
    rw [hnone]
    rfl

end Writing

end MapAlgebra.Grid
