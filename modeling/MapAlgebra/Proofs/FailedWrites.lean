import MapAlgebra.Proofs.Stops
import MapAlgebra.Proofs.Writes

/-!
# Files after a failed line

Without tracing a line writes one grid, its result, and that comes last. A line that fails before it
opens the file of its result leaves every file as it is. Once the file is open its old bytes are
gone, and when the header does not fit into its fields only the part in front of it is there.
-/

namespace MapAlgebra

open Expression

variable {K V S : Type}

namespace Grid

variable [Coordinate K] [Number V] [Cell S V]
variable {grid : Grid K V S} {path : Path} {before tree : FileTree} {place : Place}
  {bytes : List UInt8}

/-- A grid that is to be written gets as far as its file at a place, which is left with the bytes
that come before the end or the fault of its encoding. -/
inductive Opens (grid : Grid K V S) (path : Path) (before : FileTree) (place : Place) :
    List UInt8 → FileTree → Prop
  | intro {tree : FileTree} {cells : Raster S}
      (hmade : (before.ensureDirectories path.parent).1 = .ok ())
      (hvalues : grid.values = .ok cells)
      (hplace : (before.ensureDirectories path.parent).2.place path = .ok place)
      (hwrite : (before.ensureDirectories path.parent).2.write path
        (Idf.encode grid cells).1 = .ok tree) :
      Opens grid path before place (Idf.encode grid cells).1 tree

theorem Opens.unique {place' : Place} {bytes' : List UInt8} {tree' : FileTree}
    (h : grid.Opens path before place bytes tree)
    (h' : grid.Opens path before place' bytes' tree') : place' = place ∧ bytes' = bytes := by
  obtain ⟨-, hvalues, hplace, -⟩ := h
  obtain ⟨-, hvalues', hplace', -⟩ := h'
  cases hvalues.symm.trans hvalues'
  cases hplace.symm.trans hplace'
  exact ⟨rfl, rfl⟩

/-- In the tree that is left the file has the bytes, and every other file is as it was. -/
theorem Opens.node?_eq (h : grid.Opens path before place bytes tree) {other : Place}
    {old : List UInt8} (hold : before.node? other = some (.file old)) :
    tree.node? other = some (.file (if other = place then bytes else old)) := by
  obtain ⟨hmade, hvalues, hplace, hwrite⟩ := h
  obtain ⟨found, hfound, -, hnode⟩ := FileTree.write_eq_ok hwrite
  cases hplace.symm.trans hfound
  rw [hnode]
  split
  next => rfl
  next => exact (FileTree.ensureDirectories_extends before path.parent).node other _ hold

/-- Writing that fails adds directories at most, or it fails once the file is open. -/
theorem write_eq_error {metadata : Option Metadata} {fault : Fault}
    (h : (grid.write path metadata before).1 = .error fault) :
    (FileTree.Extends before (grid.write path metadata before).2 ∧
        ∀ place bytes tree, ¬ grid.Opens path before place bytes tree) ∨
      ∃ place bytes, grid.Opens path before place bytes (grid.write path metadata before).2 := by
  have hextends := FileTree.ensureDirectories_extends before path.parent
  rcases hmake : before.ensureDirectories path.parent with ⟨cause | _, made⟩
  · refine .inl ⟨?_, fun _ _ _ hopens => ?_⟩
    · unfold write
      simpa only [hmake] using hextends
    · obtain ⟨hmade, -, -, -⟩ := hopens
      rw [hmake] at hmade
      cases hmade
  cases hvalues : grid.values with
  | error cause =>
      refine .inl ⟨?_, fun _ _ _ hopens => ?_⟩
      · unfold write
        simpa only [hmake, hvalues] using hextends
      · obtain ⟨-, hcells, -, -⟩ := hopens
        cases hvalues.symm.trans hcells
  | ok cells =>
      cases hwrite : made.write path (Idf.encode grid cells).1 with
      | error cause =>
          refine .inl ⟨?_, fun _ _ _ hopens => ?_⟩
          · unfold write
            simpa only [hmake, hvalues, hwrite] using hextends
          · obtain ⟨-, hcells, -, hopened⟩ := hopens
            cases hvalues.symm.trans hcells
            rw [hmake] at hopened
            cases hwrite.symm.trans hopened
      | ok opened =>
          have hleft : (grid.write path metadata before).2 = opened := by
            unfold write at h ⊢
            simp only [hmake, hvalues, hwrite] at h ⊢
            split
            next hencoded =>
              -- the grid is complete, so it is the metadata that cannot be written
              rw [hencoded] at h
              dsimp only at h
              split at h
              next => cases h
              next => rfl
            next => rfl
          obtain ⟨place, hplace, -⟩ := FileTree.write_eq_ok hwrite
          refine .inr ⟨place, (Idf.encode grid cells).1, ?_⟩
          rw [hleft]
          exact .intro (by rw [hmake]) hvalues (by rw [hmake]; exact hplace)
            (by rw [hmake]; exact hwrite)

end Grid

namespace Session

/-- Log records go to the file at a place as well. -/
def LogsTo (session : Session K V S) (place : Place) : Prop :=
  ∃ target, session.logFile = some target ∧ session.files.place target.path = .ok place

/-- A step left the file at a place alone, and did not make it the file of the log. -/
structure Spared (place : Place) (before after : Session K V S) : Prop where
  node : after.files.node? place = before.files.node? place
  log : after.LogsTo place → before.LogsTo place

variable {place : Place} {before between after session : Session K V S}

theorem Spared.refl (place : Place) (session : Session K V S) : Spared place session session :=
  ⟨rfl, id⟩

theorem Spared.trans (h : Spared place before between) (h' : Spared place between after) :
    Spared place before after :=
  ⟨h'.node.trans h.node, fun hlog => h.log (h'.log hlog)⟩

/-- A record spares every file but that of the log. -/
theorem spared_addRecord (hlog : ¬ session.LogsTo place) (record : Record) :
    Spared place session (session.addRecord record) := by
  unfold addRecord
  dsimp only
  split
  next hnone => exact ⟨rfl, fun ⟨target, hsome, hplace⟩ => ⟨target, hsome, hplace⟩⟩
  next target hsome =>
    split
    next => exact ⟨rfl, fun ⟨target, hsome, hplace⟩ => ⟨target, hsome, hplace⟩⟩
    next =>
      unfold FileTree.writeAt
      dsimp only
      cases hread : session.files.read target.path with
      | error fault =>
          refine ⟨rfl, fun ⟨other, hother, hplace⟩ => ⟨target, hsome, ?_⟩⟩
          cases hother
          exact hplace
      | ok old =>
          obtain ⟨found, hfound, -⟩ := FileTree.read_eq_ok_iff.mp hread
          have hne : place ≠ found := by
            rintro rfl
            exact hlog ⟨target, hsome, hfound⟩
          dsimp only
          split
          next tree hwrite =>
            obtain ⟨written, hwritten, hdirectories, hnode⟩ := FileTree.write_eq_ok hwrite
            cases hfound.symm.trans hwritten
            refine ⟨by rw [hnode, if_neg hne], fun ⟨other, hother, hplace⟩ => ?_⟩
            cases hother
            cases (hdirectories.place_eq_ok hfound).symm.trans hplace
            exact absurd rfl hne
          next =>
            refine ⟨rfl, fun ⟨other, hother, hplace⟩ => ⟨target, hsome, ?_⟩⟩
            cases hother
            exact hplace

variable [Coordinate K] [Number V] [Cell S V] {settings : Settings K V}

theorem Move.spared (htraces : settings.traces = false) (hlog : ¬ before.LogsTo place)
    (h : Move settings before after) : Spared place before after := by
  cases h with
  | record record => exact spared_addRecord hlog record
  | number => exact ⟨rfl, id⟩
  | load => exact ⟨rfl, id⟩
  | trace grid id metadata htrace =>
      rw [htraces] at htrace
      cases htrace

/-- Without tracing, moves spare every file but that of the log. -/
theorem Moves.spared (htraces : settings.traces = false) (hlog : ¬ before.LogsTo place)
    (h : Moves settings before after) : Spared place before after := by
  induction h with
  | refl => exact .refl place before
  | tail _ hmove ih => exact ih.trans (hmove.spared htraces fun hlater => hlog (ih.log hlater))

end Session

namespace Script

open Session

variable [Coordinate K] [Number V] [Cell S V] [Conversion K V]
variable {plan : Plan K V} {assignment : Assignment} {place : Place} {written : List UInt8}
  {before after : Session K V S} {fault : Fault}

/-- An assignment gets as far as the file of its result at a place, and puts the given bytes into
it. -/
inductive Opens (plan : Plan K V) (assignment : Assignment) (before : Session K V S)
    (place : Place) (written : List UInt8) : Prop
  | intro {grid output : Grid K V S} {evaluated : Session K V S} {tree : FileTree}
      (hcomputes : Computes plan assignment before grid evaluated)
      (hrounded : rounded plan grid = .ok output)
      (hopens : output.Opens (plan.resultPath evaluated.files assignment) evaluated.files place
        written tree)

/-- An assignment that fails changes the file of its result, once it is open, and no other file. -/
theorem Broken.node?_iff (h : Broken plan assignment before fault after)
    (htraces : plan.settings.traces = false) (hlog : ¬ before.LogsTo place) {bytes : List UInt8}
    (hbytes : before.files.node? place = some (.file bytes)) :
    after.files.node? place = some (.file bytes) ↔
      ∀ written, Opens plan assignment before place written → written = bytes := by
  cases h with
  | early hmoves _ hnone =>
      refine iff_of_true ((hmoves.spared htraces hlog).node.trans hbytes) fun written hopens => ?_
      obtain ⟨hcomputes, hrounded, -⟩ := hopens
      exact absurd hrounded (hnone _ _ _ hcomputes)
  | @writing grid output evaluated metadata hmoves hcomputes hrounded hwrite =>
      have hevaluated := (hmoves.spared htraces hlog).node.trans hbytes
      -- what is written is the grid that was computed, so the assignment opens no other file
      have hopens_iff (written : List UInt8) : Opens plan assignment before place written ↔
          ∃ tree, output.Opens (plan.resultPath evaluated.files assignment) evaluated.files place
            written tree := by
        refine ⟨fun ⟨hother, hround, hopens⟩ => ?_, fun ⟨_, hopens⟩ =>
          ⟨hcomputes, hrounded, hopens⟩⟩
        obtain ⟨rfl, rfl⟩ := hcomputes.unique hother
        cases hrounded.symm.trans hround
        exact ⟨_, hopens⟩
      dsimp only
      rcases Grid.write_eq_error hwrite with ⟨hextends, hclosed⟩ | ⟨opened, new, hopens⟩
      · refine iff_of_true (hextends.node place _ hevaluated) fun written hwritten => ?_
        obtain ⟨tree, hopens⟩ := (hopens_iff written).mp hwritten
        exact absurd hopens (hclosed _ _ _)
      · rw [hopens.node?_eq hevaluated]
        constructor
        · intro hsame written hwritten
          obtain ⟨tree, hother⟩ := (hopens_iff written).mp hwritten
          obtain ⟨rfl, rfl⟩ := hopens.unique hother
          rw [if_pos rfl] at hsame
          cases hsame
          rfl
        · intro hsame
          split
          next heq =>
            subst heq
            rw [hsame new ((hopens_iff new).mpr ⟨_, hopens⟩)]
          next => rfl

/-- Without tracing, a line that fails leaves the bytes of every file but that of the log exactly if
it is no assignment that got as far as the file and put other bytes into it. -/
theorem node?_executeLine_iff {line : Line} {bytes : List UInt8}
    (htraces : plan.settings.traces = false) (hlog : ¬ before.LogsTo place)
    (hbytes : before.files.node? place = some (.file bytes))
    (h : Run.from? before (plan.executeLine line) = (.error fault, after)) :
    after.files.node? place = some (.file bytes) ↔
      ∀ assignment written, Statement.ofText line.text = .ok (.assign assignment) →
        Opens plan assignment (before.addRecord (evaluating line)) place written →
          written = bytes := by
  obtain ⟨cause, -, -, hor⟩ := executeLine_eq_error h
  rcases hor with ⟨rfl, hnone⟩ | ⟨assignment, hstatement, hbroken⟩
  · exact iff_of_true hbytes fun assignment _ hassign => absurd hassign (hnone assignment)
  · have hspared := spared_addRecord hlog (evaluating line)
    rw [hbroken.node?_iff htraces (fun hlater => hlog (hspared.log hlater))
      (hspared.node.trans hbytes)]
    constructor
    · intro hsame other written hother
      cases hstatement.symm.trans hother
      exact hsame written
    · exact fun hsame written => hsame assignment written hstatement

section Overflow

/-- The variable of the name of the file is to mark cells without data by a number that is too large
for single precision. -/
def overflow : Line := ⟨2, "B = nd(A,1e39)".toList⟩

def overflowAssignment : Assignment := ⟨none, "B".toList, "nd(A,1e39)".toList⟩

def overflowArguments : Arguments :=
  .more (.last (.token "#1#".toList)) (.more (.last (.token "1e39".toList)) .none)

def overflowPrepared : Prepared where
  source := "nd(A,1e39)".toList
  text := minus false ++ ("nd".toList ++ '(' :: ("#1#".toList ++ ',' :: "1e39".toList ++ [')']))
  names := [("#1#".toList, "A".toList)]

theorem ofText_overflow : Statement.ofText overflow.text = .ok (.assign overflowAssignment) := by
  decide +kernel

theorem spells_overflow :
    (Chain.last (.call false "nd".toList overflowArguments)).Spells overflowPrepared.text := by
  have htoken (text : Text) (hne : text ≠ []) (hplain : text.all isPlain = true) : IsToken text :=
    ⟨hne, false, text, .plain (List.all_eq_true.mp hplain), rfl⟩
  refine .last (.call (by decide) (.plain (List.all_eq_true.mp (by decide))) ?_)
  exact .more (.last (.token (htoken _ (by decide) (by decide))))
    (.last (.last (.token (htoken _ (by decide) (by decide)))))

/-- The line fails, and nothing of the file is left. -/
theorem exists_overflow_eq_error : ∃ after,
    Run.from? loadedSession (plainPlan.executeLine overflow) =
        (.error (.line 2 overflow.text (.number .tooLarge)), after) ∧
      after.files.node? ["B.IDF".toList] = some (.file []) := by
  have hprepare : prepare overflowAssignment.expression
      (loadedSession.addRecord (evaluating overflow)).table.namesLongestFirst =
        .ok overflowPrepared := by
    rw [namesLongestFirst_loaded]
    decide +kernel
  have hname : plainPlan.isFileName (loadedSession.addRecord (evaluating overflow)).files
      overflowAssignment.expression = false := by decide +kernel
  have hassign : Run.breaks (loadedSession.addRecord (evaluating overflow))
      (plainPlan.assign overflowAssignment) fun fault after =>
        fault = .number .tooLarge ∧ after.files.node? ["B.IDF".toList] = some (.file []) := by
    unfold Run.breaks Plan.assign
    rw [Run.from?_bind, from?_value_of_prepare hname hprepare, evaluate_last _ spells_overflow]
    simp only [Scope.evaluateTerm, Scope.evaluateArguments, Scope.evaluateLinks, overflowArguments,
      bind_assoc, pure_bind, Scope.link_bind_merge]
    decide +kernel
  obtain ⟨fault, after, hfails, hcheck⟩ := Run.exists_of_breaks hassign
  obtain ⟨rfl, hempty⟩ := of_decide_eq_true hcheck
  exact ⟨after, executeLine_eq_error_of_assign ofText_overflow hfails, hempty⟩

theorem node?_executeLine_overflow : ∃ bytes fault after,
    plainPlan.settings.traces = false ∧ ¬ loadedSession.LogsTo ["B.IDF".toList] ∧
      loadedSession.files.node? ["B.IDF".toList] = some (.file bytes) ∧
      Run.from? loadedSession (plainPlan.executeLine overflow) = (.error fault, after) ∧
      (after.files.node? ["B.IDF".toList] = some (.file bytes) ↔
        ∀ assignment written, Statement.ofText overflow.text = .ok (.assign assignment) →
          Opens plainPlan assignment (loadedSession.addRecord (evaluating overflow))
            ["B.IDF".toList] written → written = bytes) := by
  obtain ⟨after, hline, -⟩ := exists_overflow_eq_error
  have hlog : ¬ loadedSession.LogsTo ["B.IDF".toList] := by
    have hnone : loadedSession.logFile = none := by decide +kernel
    rintro ⟨target, hsome, -⟩
    cases hnone.symm.trans hsome
  have hbytes : loadedSession.files.node? ["B.IDF".toList] =
      some (.file (Idf.encode five (.fill 1 1 5)).1) := by decide +kernel
  exact ⟨_, _, after, rfl, hlog, hbytes, hline, node?_executeLine_iff rfl hlog hbytes hline⟩

/-- The file behind the first variable is empty after the line that failed. -/
theorem overflow_empties_file : ∃ bytes fault after,
    Reached plainPlan loadedSession ∧ plainPlan.settings.traces = false ∧
      loadedSession.logFile = none ∧
      loadedSession.files.node? ["B.IDF".toList] = some (.file bytes) ∧
      Statement.ofText overflow.text = .ok (.assign overflowAssignment) ∧
      Run.from? loadedSession (plainPlan.executeLine overflow) =
        (.error (.line 2 overflow.text fault), after) ∧
      after.files.node? ["B.IDF".toList] ≠ some (.file bytes) := by
  obtain ⟨after, hline, hempty⟩ := exists_overflow_eq_error
  refine ⟨(Idf.encode five (.fill 1 1 5)).1, _, after, reached_loaded, rfl, by decide +kernel,
    by decide +kernel, ofText_overflow, hline, ?_⟩
  rw [hempty]
  decide +kernel

end Overflow

end Script

end MapAlgebra
