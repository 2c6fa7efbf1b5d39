import MapAlgebra.Proofs.Stops

/-!
# The values of bindings

Whatever lines have been carried out, and whether they succeeded or not, no two bindings have one
value between them and no two have one name. The value of an assignment may be the value of a
variable, which an expression can hand on as it is; it is bound as a copy then.
-/

namespace MapAlgebra.Script

open Expression Session Run

variable {K V S : Type} [Coordinate K] [Number V] [Cell S V] [Conversion K V]
variable {session before after : Session K V S}

/-- Sessions that lines lead to from the start of a script, each under a plan of its own. Between
lines, files may change and records may be logged. -/
inductive Visited : Session K V S → Prop
  | start (files : FileTree) : Visited (start files)
  | meanwhile {before after : Session K V S} (h : Visited before)
      (htable : after.table = before.table) : Visited after
  | line {before : Session K V S} (h : Visited before) (plan : Plan K V) (line : Line) :
      Visited (Run.from? before (plan.executeLine line)).2

/-- A line leaves every value at a slot of its own, whether it succeeds or fails. -/
theorem slotted_executeLine (hslotted : before.table.Slotted) (plan : Plan K V) (line : Line) :
    (Run.from? before (plan.executeLine line)).2.table.Slotted := by
  rcases hline : Run.from? before (plan.executeLine line) with ⟨fault | found, after⟩
  · obtain ⟨hkept, hslot⟩ := kept_of_executeLine_eq_error hslotted.apart hline
    exact hslotted.of_reloaded hslot hkept.reloaded
  · exact slotted_of_executeLine_eq_ok hslotted hline

theorem Visited.slotted (h : Visited session) : session.table.Slotted := by
  induction h with
  | start files => exact slotted_start files
  | meanwhile _ htable ih => rwa [htable]
  | line _ plan line ih => exact slotted_executeLine ih plan line

theorem Visited.executeLines (h : Visited before) (plan : Plan K V) (lines : List Line) :
    Visited (Run.from? before (plan.executeLines lines)).2 := by
  induction lines generalizing before with
  | nil => exact h
  | cons line rest ih =>
      have hline := h.line plan line
      rw [Plan.executeLines, from?_bind]
      generalize Run.from? before (plan.executeLine line) = result at hline ⊢
      rcases result with ⟨fault | found, between⟩
      · exact hline
      · exact ih hline

/-- Running a script leads on, wherever the run ends. -/
theorem Visited.run (h : Visited before) (plan : Plan K V) (source : Text) :
    Visited (Run.from? before (plan.run source)).2 := by
  cases hlines : plan.prepareLines before.files source with
  | error fault =>
      rw [from?_run_of_prepareLines_eq_error hlines]
      exact h
  | ok lines =>
      rw [from?_run hlines, from?_bind]
      have hlisting : Leads SameTable _ _ before (listing plan lines) := leads_listing lines
      have hlisted : Visited (Run.from? before (listing plan lines)).2 := h.meanwhile hlisting.moves
      generalize Run.from? before (listing plan lines) = result at hlisted ⊢
      rcases result with ⟨fault | u, listed⟩
      · exact hlisted
      · have hcarried := hlisted.executeLines plan lines
        dsimp only
        rcases hrun : Run.from? listed (plan.executeLines lines) with ⟨fault | u, carried⟩
        · rw [hrun] at hcarried
          rw [from?_processing_of_executeLines_eq_error hrun]
          cases fault with
          | quietStop reason => exact hcarried.meanwhile (table_addRecord _ _)
          | _ => exact hcarried
        · rw [hrun] at hcarried
          rw [from?_processing_of_executeLines_eq_ok hrun]
          exact hcarried.meanwhile (table_addRecord _ _)

/-- Two bindings at different places of the table have different values and different names: each
value is kept at a slot of its own, and no name is another one in other letter case. -/
theorem apart_of_visited (h : Visited session) {i j : Nat}
    (hi : i < session.table.bindings.length) (hj : j < session.table.bindings.length)
    (hne : i ≠ j) :
    (∃ slot slot', (session.table.bindings.get ⟨i, hi⟩).value.slot = some slot ∧
      (session.table.bindings.get ⟨j, hj⟩).value.slot = some slot' ∧ slot ≠ slot') ∧
    VariableTable.key (session.table.bindings.get ⟨i, hi⟩).name ≠
      VariableTable.key (session.table.bindings.get ⟨j, hj⟩).name := by
  obtain ⟨⟨hnames, hslots⟩, hfresh⟩ := h.slotted
  obtain ⟨slot, -, hslot⟩ := hfresh _ (List.get_mem _ ⟨i, hi⟩)
  obtain ⟨slot', -, hslot'⟩ := hfresh _ (List.get_mem _ ⟨j, hj⟩)
  refine ⟨⟨slot, slot', hslot, hslot', fun hsame => hne ?_⟩, fun hsame => hne ?_⟩
  · have heq : (session.table.bindings.map (·.value.slot)).get ⟨i, by simpa using hi⟩ =
        (session.table.bindings.map (·.value.slot)).get ⟨j, by simpa using hj⟩ := by
      simpa [hsame] using hslot.trans (hsame ▸ hslot'.symm)
    simpa using List.nodup_iff_injective_get.mp hslots heq
  · have heq : (session.table.bindings.map fun binding => VariableTable.key binding.name).get
          ⟨i, by simpa using hi⟩ =
        (session.table.bindings.map fun binding => VariableTable.key binding.name).get
          ⟨j, by simpa using hj⟩ := by
      simpa using hsame
    simpa using List.nodup_iff_injective_get.mp hnames heq

/-- A line that opens a file, one that gives its map to another name, one that fails, and one that
binds the first name again. -/
theorem apart_of_loaded_lines :
    let lines : List Line := [⟨1, "A = B.IDF".toList⟩, ⟨2, "C = B.IDF".toList⟩,
      ⟨3, "D = X.IDF".toList⟩]
    let rebound : Line := ⟨4, "a = B.IDF".toList⟩
    let failed := (Run.from? (start oneFile : Session Float Float Float32)
      (plainPlan.executeLines lines)).2
    let session := (Run.from? failed (plainPlan.executeLine rebound)).2
    ∃ (hone : 1 < session.table.bindings.length) (htwo : 2 < session.table.bindings.length),
      Visited session ∧
      (∃ slot slot', (session.table.bindings.get ⟨1, hone⟩).value.slot = some slot ∧
        (session.table.bindings.get ⟨2, htwo⟩).value.slot = some slot' ∧ slot ≠ slot') ∧
      VariableTable.key (session.table.bindings.get ⟨1, hone⟩).name ≠
        VariableTable.key (session.table.bindings.get ⟨2, htwo⟩).name := by
  intro lines rebound failed session
  have hlength : session.table.bindings.length = 3 := by decide +kernel
  have hvisited : Visited session :=
    ((Visited.start oneFile).executeLines plainPlan lines).line plainPlan rebound
  have hone : 1 < session.table.bindings.length := by omega
  have htwo : 2 < session.table.bindings.length := by omega
  exact ⟨hone, htwo, hvisited, apart_of_visited hvisited hone htwo (by decide)⟩

end MapAlgebra.Script
