import MapAlgebra.Proofs.Moves
import MapAlgebra.Proofs.Writes

/-!
# What evaluation leaves

Evaluation takes numbers, logs, loads bound grids and, with tracing on, writes grids under the
numbers it took. It binds nothing and changes no other file that a grid may be read from.
-/

namespace MapAlgebra

open Expression

variable {K V S : Type} [Coordinate K] [Number V] [Cell S V]

omit [Coordinate K] [Number V] in
theorem tracePath_congr (settings : Settings K V) {before after : FileTree}
    (h : after.current = before.current) (id : Text) :
    tracePath settings after id = tracePath settings before id := by
  unfold tracePath Settings.outputDirectory FileTree.currentPath
  rw [h]

namespace Session

variable {settings : Settings K V} {session before between after : Session K V S}

/-- Log records go to no file that a grid may be read from. -/
def LogsElsewhere (session : Session K V S) : Prop :=
  ∀ target, session.logFile = some target → ∀ (tree : FileTree) (place : Place),
    tree.place target.path = .ok place → ¬ IsGridPlace place

/-- The session goes on: it may have logged, loaded bound grids and written grids. -/
structure Proceeds (writes : List (Place × Raster S)) (before after : Session K V S) : Prop where
  counter : before.counter ≤ after.counter
  log : after.logFile.map LogFile.path = before.logFile.map LogFile.path
  nextSlot : after.table.nextSlot = before.table.nextSlot
  bindings : Reloaded before.table.bindings after.table.bindings
  files : Written K writes before.files after.files

/-- The session goes on, and what was written are results under the numbers from `least` on, with
tracing on. -/
structure Advances (settings : Settings K V) (least : Nat) (writes : List (Place × Raster S))
    (before after : Session K V S) : Prop extends Proceeds writes before after where
  traces : ∀ write ∈ writes, settings.traces ∧ ∃ number, least ≤ number ∧ number ≤ after.counter ∧
    after.files.place (tracePath settings after.files (expressionId number)) = .ok write.1

/-- A session in which evaluation can begin: its log is kept apart from its grids, and so are the
bound values from each other. -/
structure Calm (session : Session K V S) : Prop where
  logs : session.LogsElsewhere
  apart : VariableTable.Apart session.table.bindings

omit [Coordinate K] [Number V] [Cell S V] in
theorem LogsElsewhere.of_map_path (h : before.LogsElsewhere)
    (hlog : after.logFile.map LogFile.path = before.logFile.map LogFile.path) :
    after.LogsElsewhere := by
  intro target htarget
  rw [htarget, Option.map_some] at hlog
  obtain ⟨old, hold, hpath⟩ := Option.map_eq_some_iff.mp hlog.symm
  rw [← hpath]
  exact h old hold

namespace Proceeds

variable {writes more : List (Place × Raster S)}

/-- A session in which the bindings are the same. -/
theorem of_table_eq (hcounter : before.counter ≤ after.counter)
    (hlog : after.logFile.map LogFile.path = before.logFile.map LogFile.path)
    (htable : after.table = before.table) (hfiles : Written K writes before.files after.files) :
    Proceeds writes before after where
  counter := hcounter
  log := hlog
  nextSlot := by rw [htable]
  bindings := by rw [htable]; exact .refl _
  files := hfiles

theorem trans (h : Proceeds writes before between) (h' : Proceeds more between after) :
    Proceeds (writes ++ more) before after where
  counter := Nat.le_trans h.counter h'.counter
  log := h'.log.trans h.log
  nextSlot := h'.nextSlot.trans h.nextSlot
  bindings := h.bindings.trans h'.bindings
  files := h.files.trans h'.files

theorem calm (h : Proceeds writes before after) (hcalm : before.Calm) : after.Calm where
  logs := hcalm.logs.of_map_path h.log
  apart := hcalm.apart.of_reloaded h.bindings

end Proceeds

namespace Advances

variable {least least' : Nat} {writes more : List (Place × Raster S)}

theorem of_proceeds (h : Proceeds (S := S) [] before after) :
    Advances settings least [] before after :=
  ⟨h, nofun⟩

theorem refl (session : Session K V S) : Advances settings least [] session session :=
  of_proceeds (.of_table_eq (Nat.le_refl _) rfl rfl (.refl _))

theorem trans (h : Advances settings least writes before between)
    (h' : Advances settings least' more between after) (hleast : least ≤ least') :
    Advances settings least (writes ++ more) before after where
  toProceeds := h.toProceeds.trans h'.toProceeds
  traces write hwrite := by
    rcases List.mem_append.mp hwrite with hwrite | hwrite
    · obtain ⟨htraces, number, hfrom, hto, hplace⟩ := h.traces write hwrite
      refine ⟨htraces, number, hfrom, Nat.le_trans hto h'.counter, ?_⟩
      rw [tracePath_congr settings h'.files.directories.current]
      exact h'.files.directories.place_eq_ok hplace
    · obtain ⟨htraces, number, hfrom, hto, hplace⟩ := h'.traces write hwrite
      exact ⟨htraces, number, Nat.le_trans hleast hfrom, hto, hplace⟩

end Advances

theorem advances_addRecord (least : Nat) (hlogs : session.LogsElsewhere) (record : Record) :
    Advances settings least [] session (session.addRecord record) := by
  refine .of_proceeds ?_
  unfold addRecord
  dsimp only
  split
  next => exact .of_table_eq (Nat.le_refl _) rfl rfl (.refl _)
  next target htarget =>
    split
    next => exact .of_table_eq (Nat.le_refl _) rfl rfl (.refl _)
    next =>
      refine .of_table_eq (Nat.le_refl _) ?_ rfl (.of_writeAt (hlogs target htarget session.files))
      rw [htarget]
      rfl

theorem advances_addRecords (least : Nat) (hlogs : session.LogsElsewhere)
    (records : List Record) :
    Advances settings least [] session (records.foldl addRecord session) := by
  induction records generalizing session with
  | nil => exact .refl session
  | cons record records ih =>
      have hrecord : Advances settings least [] session (session.addRecord record) :=
        advances_addRecord least hlogs record
      exact hrecord.trans (ih (hlogs.of_map_path hrecord.log)) (Nat.le_refl _)

theorem advances_nextId (least : Nat) (session : Session K V S) :
    Advances settings least [] session { session with counter := session.counter + 1 } :=
  .of_proceeds (.of_table_eq (Nat.le_succ _) rfl rfl (.refl _))

theorem advances_of_record_eq_ok (least : Nat) (hlogs : session.LogsElsewhere) {level : Level}
    {text : String} {u : Unit}
    (h : Run.from? session (Run.record level text) = (.ok u, after)) :
    Advances settings least [] session after := by
  rw [← Run.from?_record_eq_ok.mp h]
  exact advances_addRecord least hlogs _

theorem advances_of_traced_eq_ok (least : Nat) (hlogs : session.LogsElsewhere) {α : Type}
    {computation : Traced α} {a : α}
    (h : Run.from? session (Run.traced computation) = (.ok a, after)) :
    Advances settings least [] session after := by
  rw [← (Run.from?_traced_eq_ok.mp h).2]
  exact advances_addRecords least hlogs _

/-- A grid that is written joins the writes. -/
theorem exists_proceeds_of_write_eq_ok [LawfulCell S] {grid : Grid K V S} {path : Path}
    {metadata : Option Metadata} {u : Unit}
    (h : Run.from? session (Run.changeFiles (grid.write path metadata)) = (.ok u, after)) :
    ∃ place cells, grid.values = .ok cells ∧ after.files.place path = .ok place ∧
      Proceeds [(place, cells)] session after := by
  obtain ⟨hwrite, rfl⟩ := Run.from?_changeFiles_eq_ok.mp h
  obtain ⟨place, cells, hcells, hplace, hfiles⟩ := Grid.write_eq_ok (Prod.ext hwrite rfl)
  exact ⟨place, cells, hcells, hplace, .of_table_eq (Nat.le_refl _) rfl rfl hfiles⟩

end Session

namespace Expression

open Session

variable {settings : Settings K V} {session after : Session K V S}

/-- The result of a part is written, with tracing on, under the number that was taken last. -/
theorem exists_advances_of_emit_eq_ok [LawfulCell S] (hlogs : session.LogsElsewhere) {text : Text}
    {value : Operand K V S} {u : Unit}
    (h : Run.from? session (emit settings (expressionId session.counter) text value) =
      (.ok u, after)) :
    ∃ writes, Advances settings session.counter writes session after := by
  unfold emit at h
  split at h
  next htraces =>
    obtain ⟨_, named, hname, hresult⟩ := Run.from?_bind_eq_ok.mp h
    have hnamed : Advances settings session.counter [] session named :=
      advances_of_record_eq_ok _ hlogs hname
    cases value with
    | constant c =>
        exact ⟨_, hnamed.trans
          (advances_of_record_eq_ok _ (hlogs.of_map_path hnamed.log) hresult) (Nat.le_refl _)⟩
    | grid g =>
        obtain ⟨_, _, hget, hwriting⟩ := Run.from?_bind_eq_ok.mp hresult
        obtain ⟨rfl, rfl⟩ := Run.from?_pure_eq_ok.mp hget
        obtain ⟨_, written, hwrite, hrecord⟩ := Run.from?_bind_eq_ok.mp hwriting
        obtain ⟨place, cells, -, hplace, hwritten⟩ := exists_proceeds_of_write_eq_ok hwrite
        have htrace : Advances settings session.counter [(place, cells)] named written := by
          refine ⟨hwritten, fun write hmem => ?_⟩
          rw [List.mem_singleton.mp hmem]
          refine ⟨htraces, session.counter, Nat.le_refl _,
            Nat.le_trans hnamed.counter hwritten.counter, ?_⟩
          rw [tracePath_congr settings hwritten.files.directories.current]
          exact hplace
        have hlogs' := (hlogs.of_map_path hnamed.log).of_map_path hwritten.log
        exact ⟨_, (hnamed.trans htrace (Nat.le_refl _)).trans
          (advances_of_record_eq_ok _ hlogs' hrecord) (Nat.le_refl _)⟩
  next =>
    cases h
    exact ⟨[], .refl session⟩

section Merging

variable {scope : Scope K V} {link : Link K V S}

omit [Coordinate K] [Number V] [Cell S V] in
theorem link_eq_ok {depth : Nat} {action : Option Operator} {part : Part K V S} :
    Run.from? session (Scope.link depth action part) = (.ok link, after) ↔
      link = ⟨part, action, expressionId (session.counter + 1), depth⟩ ∧
        after = { session with counter := session.counter + 1 } := by
  unfold Scope.link
  rw [Run.from?_bind, Run.from?_nextId]
  constructor
  · intro h
    cases h
    exact ⟨rfl, rfl⟩
  · rintro ⟨rfl, rfl⟩
    rfl

theorem provenance_of_mergeLinks_eq_ok {left right : Link K V S} {op : Operator}
    (h : Run.from? session (scope.mergeLinks left op right) = (.ok link, after)) :
    link.provenance = .complex := by
  obtain ⟨value, combined, text, rfl, -⟩ := Scope.exists_emit_of_mergeLinks_eq_ok h
  rfl

theorem exists_advances_of_mergeLinks_eq_ok [LawfulCell S] (hlogs : session.LogsElsewhere)
    {left right : Link K V S} {op : Operator}
    (h : Run.from? session (scope.mergeLinks left op right) = (.ok link, after)) :
    ∃ writes, Advances scope.settings (session.counter + 1) writes session after := by
  obtain ⟨value, combined, text, rfl, hcombine, hemit⟩ := Scope.exists_emit_of_mergeLinks_eq_ok h
  have hnumbered : Advances scope.settings (session.counter + 1) [] session _ :=
    advances_nextId _ session
  -- combining takes no number, so the result is written under the one taken for the merge
  have hcounter : combined.counter = session.counter + 1 := by
    rw [← (Run.from?_traced_eq_ok.mp hcombine).2, counter_foldl_addRecord]
  have hbefore := hnumbered.trans
    (advances_of_traced_eq_ok (session.counter + 1) (hlogs.of_map_path hnumbered.log) hcombine)
    (Nat.le_refl _)
  rw [← hcounter] at hemit
  obtain ⟨writes, hwrites⟩ := exists_advances_of_emit_eq_ok (hlogs.of_map_path hbefore.log) hemit
  exact ⟨_, hbefore.trans hwrites (Nat.le_of_eq hcounter.symm)⟩

/-- Merging computes a value, unless there is nothing to merge. -/
theorem operand_or_complex_of_reduce_eq_ok {tree : Merging (Link K V S)}
    (h : Run.from? session (tree.reduce scope.mergeLinks) = (.ok link, after)) :
    tree = .operand link ∧ after = session ∨ link.provenance = .complex ∧ tree.rest ≠ [] := by
  cases tree with
  | operand first =>
      obtain ⟨rfl, rfl⟩ := Run.from?_pure_eq_ok.mp h
      exact .inl ⟨rfl, rfl⟩
  | merge left op right =>
      rw [Merging.reduce] at h
      obtain ⟨a, between, ha, hbehind⟩ := Run.from?_bind_eq_ok.mp h
      obtain ⟨b, merging, hb, hstep⟩ := Run.from?_bind_eq_ok.mp hbehind
      refine .inr ⟨provenance_of_mergeLinks_eq_ok hstep, ?_⟩
      rw [Merging.rest]
      exact List.append_ne_nil_of_right_ne_nil _ (List.cons_ne_nil _ _)

theorem exists_advances_of_reduce_eq_ok [LawfulCell S] (hlogs : session.LogsElsewhere)
    {tree : Merging (Link K V S)}
    (h : Run.from? session (tree.reduce scope.mergeLinks) = (.ok link, after)) :
    ∃ writes, Advances scope.settings (session.counter + 1) writes session after := by
  induction tree generalizing session link after with
  | operand first =>
      obtain ⟨rfl, rfl⟩ := Run.from?_pure_eq_ok.mp h
      exact ⟨[], .refl session⟩
  | merge left op right ihl ihr =>
      rw [Merging.reduce] at h
      obtain ⟨a, between, ha, hbehind⟩ := Run.from?_bind_eq_ok.mp h
      obtain ⟨b, merging, hb, hstep⟩ := Run.from?_bind_eq_ok.mp hbehind
      obtain ⟨writesLeft, hleft⟩ := ihl hlogs ha
      obtain ⟨writesRight, hright⟩ := ihr (hlogs.of_map_path hleft.log) hb
      -- the right side takes its numbers once the left side has taken its own
      have hboth := hleft.trans hright (Nat.succ_le_succ hleft.counter)
      obtain ⟨writes, hmerge⟩ :=
        exists_advances_of_mergeLinks_eq_ok (hlogs.of_map_path hboth.log) hstep
      exact ⟨_, hboth.trans hmerge (Nat.succ_le_succ hboth.counter)⟩

/-- Merging a row computes a value, unless there is one link only. -/
theorem single_or_complex_of_merge_eq_ok {first : Link K V S} {rest : List (Link K V S)}
    (hrow : IsRow ((first :: rest).map Link.placed))
    (h : Run.from? session (scope.merge first rest) = (.ok link, after)) :
    link = first ∧ rest = [] ∧ after = session ∨ link.provenance = .complex ∧ rest ≠ [] := by
  rw [Scope.merge_eq_reduce scope hrow] at h
  -- the tree has a merge for every link but one
  have hlength : (joins first.action (rest.map Link.placed)).length = rest.length :=
    hrow.length_joins.trans (List.length_map _)
  rcases operand_or_complex_of_reduce_eq_ok h with ⟨htree, hafter⟩ | ⟨hcomplex, hrest⟩
  · refine .inl ⟨?_, ?_, hafter⟩
    · have hfirst := first_bySplitting first (joins first.action (rest.map Link.placed))
      rw [htree] at hfirst
      exact hfirst
    · have hnil := rest_bySplitting first (joins first.action (rest.map Link.placed))
      rw [htree] at hnil
      rw [← hnil] at hlength
      exact List.length_eq_zero_iff.mp hlength.symm
  · refine .inr ⟨hcomplex, ?_⟩
    rintro rfl
    rw [rest_bySplitting, List.map_nil] at hrest
    exact hrest (List.length_eq_zero_iff.mp hlength)

variable [Conversion K V]

theorem exists_advances_of_call_eq_ok [LawfulCell S] (hlogs : session.LogsElsewhere)
    {function : Function} {arguments : List (Part K V S)} {part : Part K V S}
    (h : Run.from? session (scope.call function arguments) = (.ok part, after)) :
    ∃ writes, Advances scope.settings (session.counter + 1) writes session after := by
  obtain ⟨value, computed, text, rfl, hvalue, hemit⟩ := exists_emit_of_call_eq_ok h
  have hcomputed : Advances scope.settings (session.counter + 1) [] session computed :=
    advances_of_traced_eq_ok (session.counter + 1) hlogs hvalue
  have hbefore := hcomputed.trans (advances_nextId (session.counter + 1) computed) (Nat.le_refl _)
  obtain ⟨writes, hwrites⟩ := exists_advances_of_emit_eq_ok (hlogs.of_map_path hbefore.log) hemit
  exact ⟨_, hbefore.trans hwrites (Nat.succ_le_succ hcomputed.counter)⟩

end Merging

section Terms

variable {scope : Scope K V} {part : Part K V S}

theorem NameMeans.advances (hcalm : session.Calm) {name : Text} (least : Nat)
    (h : NameMeans scope session name part after) :
    Advances scope.settings least [] session after := by
  cases h with
  | @«variable» bound binding loaded value hname hbinding hload hvalue =>
      have hfound := VariableTable.item_eq_ok_iff.mp hbinding
      have hmem := (VariableTable.mem_of_get?_eq_some hfound).1
      have hreloaded : binding.value.Reloaded value := hvalue ▸ .of_load hload
      exact .of_proceeds ⟨Nat.le_refl _, rfl, nextSlot_update session.table value,
        VariableTable.update_reloaded hcalm.apart hmem hreloaded, .refl _⟩
  | keyword => exact .refl session
  | @file opened loaded records => exact advances_addRecords least hcalm.logs records

theorem TokenMeans.advances (hcalm : session.Calm) {token : Text} (least : Nat)
    (h : TokenMeans scope session token part after) :
    Advances scope.settings least [] session after := by
  cases h with
  | number => exact .refl session
  | name _ hname hsigned => exact hname.advances hcalm least

/-- Merging takes its numbers once the operands have taken theirs. -/
theorem exists_advances_of_operands [LawfulCell S] {between : Session K V S}
    {first merged : Link K V S} {rest : List (Link K V S)} (hcalm : session.Calm)
    (hrow : IsRow ((first :: rest).map Link.placed))
    (hoperands : ∃ writes, Advances scope.settings (session.counter + 1) writes session between)
    (hmerge : Run.from? between (scope.merge first rest) = (.ok merged, after)) :
    ∃ writes, Advances scope.settings (session.counter + 1) writes session after := by
  obtain ⟨writes, hadvances⟩ := hoperands
  obtain ⟨more, hmerging⟩ := exists_advances_of_reduce_eq_ok (hadvances.calm hcalm).logs
    (Scope.merge_eq_reduce scope hrow ▸ hmerge)
  exact ⟨_, hadvances.trans hmerging (Nat.succ_le_succ hadvances.counter)⟩

variable [Conversion K V]

/-- The operands of a chain make up a row. -/
theorem OperandsMean.isRow : ∀ {chain : Chain} {depth : Nat} {session after : Session K V S}
    {first : Link K V S} {rest : List (Link K V S)},
    OperandsMean scope depth session chain (first, rest) after →
      IsRow ((first :: rest).map Link.placed)
  | .last term, depth, session, after, first, rest, h => by
      cases h with
      | last hterm hlink =>
          obtain ⟨rfl, -⟩ := link_eq_ok.mp hlink
          rfl
  | .join term op more, depth, session, after, first, rest, h => by
      cases h with
      | join hterm hlink hmore =>
          obtain ⟨rfl, -⟩ := link_eq_ok.mp hlink
          exact ⟨Option.some_ne_none op, hmore.isRow⟩
  | .broken term wanted left, depth, session, after, first, rest, h => by
      cases h

-- By induction on the derivation. Numbers are taken in order, so what a later step writes goes
-- under numbers above those taken before, and the traces of the steps can be put together.
mutual

/-- Evaluating operands only goes on with the session. -/
theorem OperandsMean.exists_advances [LawfulCell S] : ∀ {chain : Chain} {depth : Nat}
    {session after : Session K V S} {first : Link K V S} {rest : List (Link K V S)},
    OperandsMean scope depth session chain (first, rest) after → session.Calm →
      ∃ writes, Advances scope.settings (session.counter + 1) writes session after
  | .last term, depth, session, after, first, rest, h, hcalm => by
      cases h with
      | last hterm hlink =>
          obtain ⟨writes, hadvances⟩ := hterm.exists_advances hcalm
          obtain ⟨rfl, rfl⟩ := link_eq_ok.mp hlink
          exact ⟨_, hadvances.trans (advances_nextId (session.counter + 1) _) (Nat.le_refl _)⟩
  | .join term op more, depth, session, after, first, rest, h, hcalm => by
      cases h with
      | join hterm hlink hmore =>
          obtain ⟨writes, hadvances⟩ := hterm.exists_advances hcalm
          obtain ⟨rfl, rfl⟩ := link_eq_ok.mp hlink
          have hlinked := hadvances.trans (advances_nextId (session.counter + 1) _) (Nat.le_refl _)
          obtain ⟨behind, hbehind⟩ := hmore.exists_advances (hlinked.calm hcalm)
          exact ⟨_, hlinked.trans hbehind (Nat.succ_le_succ hlinked.counter)⟩
  | .broken term wanted left, depth, session, after, first, rest, h, hcalm => by
      cases h

theorem TermMeans.exists_advances [LawfulCell S] : ∀ {term : Term} {depth : Nat}
    {session after : Session K V S} {part : Part K V S},
    TermMeans scope depth session term part after → session.Calm →
      ∃ writes, Advances scope.settings (session.counter + 1) writes session after
  | .token text, depth, session, after, part, h, hcalm => by
      cases h with
      | token h => exact ⟨_, h.advances hcalm (session.counter + 1)⟩
  | .missing left, depth, session, after, part, h, hcalm => by
      cases h
  | .group negated body, depth, session, after, part, h, hcalm => by
      cases h with
      | group hbody hsigned =>
          obtain ⟨hoperands, hmerge⟩ := hbody
          exact exists_advances_of_operands hcalm hoperands.isRow (hoperands.exists_advances hcalm)
            hmerge
  | .call negated name arguments, depth, session, after, part, h, hcalm => by
      cases h with
      | call hname harguments hcount hcall hsigned =>
          obtain ⟨writes, hadvances⟩ := harguments.exists_advances hcalm
          obtain ⟨more, hcalled⟩ :=
            exists_advances_of_call_eq_ok (hadvances.calm hcalm).logs hcall
          exact ⟨_, hadvances.trans hcalled (Nat.succ_le_succ hadvances.counter)⟩

theorem ArgumentsMean.exists_advances [LawfulCell S] : ∀ {arguments : Arguments} {depth : Nat}
    {session after : Session K V S} {parts : List (Part K V S)},
    ArgumentsMean scope depth session arguments parts after → session.Calm →
      ∃ writes, Advances scope.settings (session.counter + 1) writes session after
  | .none, depth, session, after, parts, h, hcalm => by
      cases h
      exact ⟨[], .refl session⟩
  | .more chain others, depth, session, after, parts, h, hcalm => by
      cases h with
      | more hfirst hrest =>
          obtain ⟨hoperands, hmerge⟩ := hfirst
          obtain ⟨writes, hadvances⟩ :=
            exists_advances_of_operands hcalm hoperands.isRow (hoperands.exists_advances hcalm)
              hmerge
          obtain ⟨more, hmore⟩ := hrest.exists_advances (hadvances.calm hcalm)
          exact ⟨_, hadvances.trans hmore (Nat.succ_le_succ hadvances.counter)⟩

end

/-- Evaluating an expression only goes on with the session. -/
theorem exists_advances_of_parse_eq_ok [LawfulCell S] {source : Text} {value : Operand K V S}
    {provenance : Provenance} (hcalm : session.Calm)
    (h : Run.from? session (parse settings source) = (.ok (value, provenance), after)) :
    ∃ writes, Advances settings (session.counter + 1) writes session after := by
  obtain ⟨prepared, chain, part, -, -, -, ⟨hoperands, hmerge⟩, rfl, -⟩ :=
    exists_means_of_parse_eq_ok h
  exact exists_advances_of_operands hcalm hoperands.isRow (hoperands.exists_advances hcalm) hmerge

end Terms

end Expression

end MapAlgebra
