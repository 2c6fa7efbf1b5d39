import MapAlgebra.Proofs.Agreement
import MapAlgebra.Proofs.Beside
import MapAlgebra.Proofs.Settled

/-!
# Evaluation with and without tracing

With tracing on, the results of parts are logged and written under the numbers they took. An
evaluation that reads no file below the directory of these results, and none over a place on the way
there that is missing, comes to the same without them.
-/

namespace MapAlgebra

open Expression

variable {K V S : Type}

/-- A fault that ends a run gracefully. -/
def Fault.IsQuiet : Fault → Prop
  | .quietStop _ => True
  | _ => False

theorem Fault.IsQuiet.exists_eq {fault : Fault} (h : fault.IsQuiet) :
    ∃ reason, fault = .quietStop reason := by
  cases fault with
  | quietStop reason => exact ⟨reason, rfl⟩
  | _ => exact h.elim

theorem Fault.OfGrid.not_isQuiet {fault : Fault} (h : fault.OfGrid) : ¬ fault.IsQuiet := by
  cases fault <;> first | exact id | exact fun _ => h

theorem Fault.OfGridFile.not_isQuiet {fault : Fault} (h : fault.OfGridFile) : ¬ fault.IsQuiet := by
  cases fault <;> first | exact id | exact fun _ => h

namespace Settings

/-- The settings with results of parts written or not. -/
def tracing (settings : Settings K V) (on : Bool) : Settings K V :=
  { settings with writeIntermediate := on }

/-- The directory of the results of parts. -/
def traceDirectory (settings : Settings K V) (files : FileTree) : Path :=
  (settings.outputDirectory files).join ⟨[], ["debug".toList]⟩

end Settings

/-- Of files that are looked for in turn, those that are: the first one that is missing is the last
one. -/
def FileTree.sought (files : FileTree) : List Path → List Path
  | [] => []
  | path :: rest => path :: if files.pathExists path then sought files rest else []

/-- The file in a directory for the result with a number. -/
def traceFile (aside : Path) (number : Nat) : Path :=
  aside.join ⟨[], [expressionId number ++ ".IDF".toList]⟩

theorem tracePath_eq (settings : Settings K V) (files : FileTree) (number : Nat) :
    tracePath settings files (expressionId number) =
      traceFile (settings.traceDirectory files) number := by
  unfold tracePath traceFile Settings.traceDirectory Path.join
  simp [Path.isAbsolute]

/-- The record that names the result of a part. -/
def resultRecord (number : Nat) (text : Text) : Record :=
  ⟨.info, s!"Evaluating expression '{str (expressionId number)} = {str text}'"⟩

/-- The record of a result that was written. -/
def writtenRecord (aside : Path) (number : Nat) : Record :=
  ⟨.debug, s!"  written to {str (traceFile aside number).toText}"⟩

/-- What a session shows: its log and its files. -/
structure Effects where
  log : List Record
  files : FileTree

def Effects.record (effects : Effects) (record : Record) : Effects :=
  { effects with log := effects.log ++ [record] }

def Session.effects (session : Session K V S) : Effects :=
  ⟨session.log, session.files⟩

theorem Session.effects_addRecord {session : Session K V S} (h : session.logFile = none)
    (record : Record) :
    (session.addRecord record).effects = session.effects.record record := by
  rw [addRecord_of_logFile_eq_none h]
  rfl

/-- What two sessions show that log the same and write the same grids, while the second one also
logs the results of parts: constants, and grids that it writes under the given numbers in turn. -/
inductive Annotates (K V S : Type) [Coordinate K] [Number V] [Cell S V] (aside : Path) :
    List Nat → Effects → Effects → Prop
  | start (files : FileTree) : Annotates K V S aside [] ⟨[], files⟩ ⟨[], files⟩
  | record {numbers : List Nat} {plain traced : Effects}
      (h : Annotates K V S aside numbers plain traced) (record : Record) :
      Annotates K V S aside numbers (plain.record record) (traced.record record)
  | write {numbers : List Nat} {plain traced : Effects}
      (h : Annotates K V S aside numbers plain traced) {grid : Grid K V S} {path : Path}
      {metadata : Option Metadata} {files files' : FileTree}
      (hplain : grid.write path metadata plain.files = (.ok (), files))
      (htraced : grid.write path metadata traced.files = (.ok (), files')) :
      Annotates K V S aside numbers { plain with files } { traced with files := files' }
  | constant {numbers : List Nat} {plain traced : Effects}
      (h : Annotates K V S aside numbers plain traced) (number : Nat) (text : Text)
      (value : String) :
      Annotates K V S aside numbers plain ((traced.record (resultRecord number text)).record
        ⟨.info, s!"  {str (expressionId number)} = {value}"⟩)
  | grid {numbers : List Nat} {plain traced : Effects}
      (h : Annotates K V S aside numbers plain traced) (number : Nat) (text : Text)
      {grid : Grid K V S} {metadata : Option Metadata} {files : FileTree}
      (hwrite : grid.write (traceFile aside number) metadata traced.files = (.ok (), files)) :
      Annotates K V S aside (numbers ++ [number]) plain
        (Effects.record { traced.record (resultRecord number text) with files }
          (writtenRecord aside number))

section Reading

variable [Coordinate K] [Number V] {before after : FileTree} {path : Path}

/-- A grid is read and loaded from the bytes of its file. -/
theorem Grid.read_congr (h : after.read path = before.read path) :
    (Grid.read after path : Traced (Grid K V S)) = Grid.read before path := by
  unfold Grid.read Idf.readHeader
  rw [h]

theorem Grid.load_congr [Cell S V] {grid : Grid K V S} (hcells : grid.cells = .onDisk path)
    (h : after.read path = before.read path) : grid.load after = grid.load before := by
  unfold Grid.load
  rw [hcells]
  dsimp only
  rw [Idf.readCells_congr h]

end Reading

namespace Session

variable [Coordinate K] [Number V] [Cell S V]

/-- A session beside one in which results of parts were written to a directory, under numbers up to
a bound. The files behind the grids that are bound are there, outside that directory. -/
structure Beside (aside : Path) (bound : Nat) (s t : Session K V S) : Prop where
  files : s.files.Beside aside t.files
  table : t.table = s.table
  counter : t.counter = s.counter
  logFile : s.logFile = none
  logFile' : t.logFile = none
  effects : ∃ numbers, numbers.Pairwise (· < ·) ∧ (∀ number ∈ numbers, number ≤ bound) ∧
    Annotates K V S aside numbers s.effects t.effects
  behind : ∀ binding ∈ s.table.bindings, ∀ grid path, binding.value = .grid grid →
    (grid.path = some path ∨ grid.cells = .onDisk path) →
      s.files.pathExists path = true ∧ ¬ s.files.target aside <+: s.files.target path

namespace Beside

variable {aside : Path} {bound : Nat} {s t : Session K V S}

theorem mono {more : Nat} (h : s.Beside aside bound t) (hle : bound ≤ more) :
    s.Beside aside more t := by
  obtain ⟨numbers, hpairwise, hbound, heffects⟩ := h.effects
  exact { h with
    effects := ⟨numbers, hpairwise, fun number hmem => (hbound number hmem).trans hle, heffects⟩ }

theorem addRecord (h : s.Beside aside bound t) (record : Record) :
    (s.addRecord record).Beside aside bound (t.addRecord record) := by
  have heffects : ∃ numbers, numbers.Pairwise (· < ·) ∧ (∀ number ∈ numbers, number ≤ bound) ∧
      Annotates K V S aside numbers (s.addRecord record).effects (t.addRecord record).effects := by
    obtain ⟨numbers, hpairwise, hbound, heffects⟩ := h.effects
    rw [effects_addRecord h.logFile, effects_addRecord h.logFile']
    exact ⟨numbers, hpairwise, hbound, heffects.record record⟩
  rw [addRecord_of_logFile_eq_none h.logFile, addRecord_of_logFile_eq_none h.logFile'] at heffects ⊢
  exact { h with effects := heffects }

theorem withCounter (h : s.Beside aside bound t) (counter : Nat) :
    Session.Beside aside bound { s with counter } { t with counter } :=
  { h with counter := rfl }

/-- A grid that is bound is loaded alike. -/
theorem load_grid_eq (h : s.Beside aside bound t) {binding : Binding K V S}
    (hmem : binding ∈ s.table.bindings) {grid : Grid K V S} (hvalue : binding.value = .grid grid) :
    grid.load t.files = grid.load s.files := by
  cases hcells : grid.cells with
  | resident cells =>
      unfold Grid.load
      rw [hcells]
  | onDisk path =>
      obtain ⟨hexists, houtside⟩ := h.behind binding hmem grid path hvalue (.inr hcells)
      exact Grid.load_congr hcells (h.files.read_eq houtside hexists).2

/-- What is bound is loaded alike. -/
theorem load_eq (h : s.Beside aside bound t) {binding : Binding K V S}
    (hmem : binding ∈ s.table.bindings) :
    binding.value.load t.files = binding.value.load s.files := by
  cases hvalue : binding.value with
  | constant c => rfl
  | grid g =>
      unfold Operand.load
      dsimp only
      rw [h.load_grid_eq hmem hvalue]

/-- A bound value may be kept loaded in both sessions. -/
theorem update (h : s.Beside aside bound t) {binding : Binding K V S}
    (hmem : binding ∈ s.table.bindings) {loaded : Operand K V S}
    (hload : binding.value.load s.files = .ok loaded) (settings : Settings K V) :
    Session.Beside aside bound
      { s with table := s.table.update (substituteNodata settings loaded) }
      { t with table := s.table.update (substituteNodata settings loaded) } := by
  refine { h with table := rfl, behind := fun other hother grid path hvalue hpath => ?_ }
  rcases VariableTable.mem_or_value_of_mem_update hother with hold | hnew
  · exact h.behind other hold grid path hvalue hpath
  -- a loaded grid keeps the path of the bound one, and its cells are resident
  · cases hbound : binding.value with
    | constant c =>
        rw [hbound] at hload
        cases hload
        cases hnew.symm.trans hvalue
    | grid g =>
        rw [hbound] at hload
        unfold Operand.load at hload
        dsimp only at hload
        cases hloaded : g.load s.files with
        | error fault =>
            rw [hloaded] at hload
            cases hload
        | ok resident =>
            rw [hloaded] at hload
            cases hload
            obtain ⟨cells, rfl, -⟩ := Grid.load_eq_ok hloaded
            obtain ⟨substitute, hsubstitute⟩ := exists_substituteNodata_eq settings
              { g with cells := .resident cells }
            cases hvalue.symm.trans (hnew.trans hsubstitute)
            exact h.behind binding hmem g path hbound (.inl (hpath.resolve_right nofun))

/-- The tracing session may record a constant. -/
theorem record_constant (h : s.Beside aside bound t) {number : Nat} (hbound : bound < number)
    (text : Text) (value : String) :
    s.Beside aside number ((t.addRecord (resultRecord number text)).addRecord
      ⟨.info, s!"  {str (expressionId number)} = {value}"⟩) := by
  obtain ⟨numbers, hpairwise, hnumbers, heffects⟩ := h.effects
  have hnone : (t.addRecord (resultRecord number text)).logFile = none := by
    rw [addRecord_of_logFile_eq_none h.logFile', h.logFile']
  rw [addRecord_of_logFile_eq_none hnone, addRecord_of_logFile_eq_none h.logFile']
  exact { h with
    effects := ⟨numbers, hpairwise, fun old hold => (hnumbers old hold).trans hbound.le,
      heffects.constant number text value⟩ }

/-- The tracing session may write a grid under a number above the bound. -/
theorem record_grid (h : s.Beside aside bound t) {number : Nat} (hbound : bound < number)
    (text : Text) {grid : Grid K V S} {metadata : Option Metadata} {made : FileTree}
    (hwrite : grid.write (traceFile aside number) metadata t.files = (.ok (), made)) :
    s.Beside aside number
      (Session.addRecord { t.addRecord (resultRecord number text) with files := made }
        (writtenRecord aside number)) := by
  obtain ⟨numbers, hpairwise, hnumbers, heffects⟩ := h.effects
  rw [addRecord_of_logFile_eq_none h.logFile', addRecord_of_logFile_eq_none]
  swap
  · exact h.logFile'
  have hname : expressionId number ++ ".IDF".toList ≠ ['.', '.'] := by
    unfold expressionId
    exact nofun
  refine { h with
    files := h.files.write_grid_traced hname rfl hwrite
    effects := ⟨numbers ++ [number], ?_, fun old hold => ?_, heffects.grid number text hwrite⟩ }
  · refine List.pairwise_append.mpr ⟨hpairwise, List.pairwise_singleton _ _, fun old hold => ?_⟩
    rw [List.forall_mem_singleton]
    exact (hnumbers old hold).trans_lt hbound
  · rcases List.mem_append.mp hold with hold | hold
    · exact (hnumbers old hold).trans hbound.le
    · exact (List.mem_singleton.mp hold).le

end Beside

/-- Two sessions of an evaluation that leaves the files of the first one alone. -/
structure Along (aside : Path) (files : FileTree) (s t : Session K V S) : Prop where
  files : s.files = files
  beside : s.Beside aside s.counter t

/-- Such sessions while the result with the last number is to be recorded. -/
structure Pending (aside : Path) (files : FileTree) (number : Nat) (s t : Session K V S) :
    Prop where
  files : s.files = files
  counter : s.counter = number
  beside : ∃ bound < number, s.Beside aside bound t

variable {aside : Path} {files : FileTree} {number : Nat} {s t : Session K V S}

theorem Pending.along (h : Pending aside files number s t) : Along aside files s t := by
  obtain ⟨bound, hbound, hst⟩ := h.beside
  exact ⟨h.files, hst.mono (h.counter ▸ hbound.le)⟩

theorem Pending.addRecord (h : Pending aside files number s t) (record : Record) :
    Pending aside files number (s.addRecord record) (t.addRecord record) := by
  obtain ⟨bound, hbound, hst⟩ := h.beside
  refine ⟨?_, ?_, bound, hbound, hst.addRecord record⟩
  · rw [addRecord_of_logFile_eq_none hst.logFile, ← h.files]
  · rw [counter_addRecord, h.counter]

theorem Along.addRecord (h : Along aside files s t) (record : Record) :
    Along aside files (s.addRecord record) (t.addRecord record) := by
  refine ⟨?_, ?_⟩
  · rw [addRecord_of_logFile_eq_none h.beside.logFile, ← h.files]
  · rw [counter_addRecord]
    exact h.beside.addRecord record

theorem Along.nextId (h : Along aside files s t) :
    Run.Agree (Pending aside files (s.counter + 1)) Fault.IsQuiet
      (Shared fun id => id = expressionId (s.counter + 1)) s t Run.nextId Run.nextId := by
  have hcounter := h.beside.counter
  refine .nextId hcounter ⟨h.files, rfl, s.counter, Nat.lt_succ_self _, ?_⟩
  rw [hcounter]
  exact h.beside.withCounter _

end Session

namespace Expression

open Session Run

variable [Coordinate K] [Number V] [Cell S V]
variable {settings : Settings K V} {aside : Path} {files : FileTree} {s t : Session K V S}

/-- Only the tracing session records the result of a part, and it writes a grid under a number that
is new. -/
theorem agree_emit_tracing (hdebug : settings.debug = false)
    (haside : aside = settings.traceDirectory files) {number : Nat}
    (h : Pending aside files number s t) (text : Text) (value : Operand K V S) :
    Run.Agree (Along aside files) Fault.IsQuiet (fun _ _ => True) s t
      (emit (settings.tracing false) (expressionId number) text value)
      (emit (settings.tracing true) (expressionId number) text value) := by
  obtain ⟨bound, hbound, hst⟩ := h.beside
  have hplain : (settings.tracing false).traces = false := by
    unfold Settings.traces Settings.tracing
    dsimp only
    rw [hdebug]
    rfl
  have htraced : (settings.tracing true).traces = true := by
    unfold Settings.traces Settings.tracing
    exact Bool.or_true _
  have hrun : Run.from? s (emit (settings.tracing false) (expressionId number) text value) =
      (.ok (), s) := by
    unfold emit
    rw [hplain]
    rfl
  have hnamed : (t.addRecord (resultRecord number text)).files = t.files := by
    rw [addRecord_of_logFile_eq_none hst.logFile']
  have hrecord : from? t (Run.record .info
      s!"Evaluating expression '{str (expressionId number)} = {str text}'") =
        (.ok (), t.addRecord (resultRecord number text)) := rfl
  unfold Run.Agree
  rw [hrun]
  unfold emit
  rw [if_pos htraced, from?_bind, hrecord]
  dsimp only
  cases value with
  | constant c =>
      exact .gives trivial ⟨h.files, h.counter.symm ▸ hst.record_constant hbound text _⟩
  | grid g =>
      dsimp only
      rw [from?_bind, from?_get]
      dsimp only
      have hpath : tracePath (settings.tracing true) (t.addRecord (resultRecord number text)).files
          (expressionId number) = traceFile aside number := by
        have hcurrent : t.files.current = files.current := h.files ▸ hst.files.current
        rw [hnamed, haside, ← tracePath_eq, ← tracePath_congr settings hcurrent]
        rfl
      rw [hpath, from?_bind, from?_changeFiles, hnamed]
      generalize (if (settings.tracing true).addMetadata then
        some (traceMetadata (expressionId number) text) else none) = metadata
      have hfails : Fails (fun fault => ¬ fault.IsQuiet)
          (g.write (traceFile aside number) metadata t.files).1 :=
        g.fails_write_of (fun _ => id) (fun _ h => h.not_isQuiet) id _ _ _
      rcases hwrite : g.write (traceFile aside number) metadata t.files with ⟨fault | _, made⟩
      · exact .second (hfails fault (congrArg Prod.fst hwrite))
      · refine .gives trivial ⟨h.files, ?_⟩
        rw [h.counter]
        exact hst.record_grid hbound text hwrite

/-- The file that a token refers to. -/
def Scope.reference? (scope : Scope K V) (token : Text) : Option Path :=
  let name := (signedName token).2
  if (literal? token : Option V).isNone && (scope.prepared.name? name).isNone &&
      !isNodataToken name && Text.endsCaseless idfSuffix name then
    some (scope.settings.resolveInput name)
  else none

/-- What is looked up alike in two sessions of an evaluation: a token that refers to no file, or to
one whose path avoids a directory. -/
def Scope.Settles (scope : Scope K V) (aside : Path) (files : FileTree) (token other : Text) :
    Prop :=
  other = token ∧ ∀ path, scope.reference? token = some path → files.Avoids aside path

section Lookups

variable {scope : Scope K V}

/-- A variable is read alike. -/
theorem agree_readVariable_tracing (h : Along aside files s t) (name : Text) :
    Run.Agree (Along aside files) Fault.IsQuiet Eq s t
      (scope.readVariable name) (scope.readVariable name) := by
  have hitem : Matching (Shared fun binding => binding ∈ s.table.bindings) (s.table.item name)
      (s.table.item name) := .shared fun binding hbinding =>
    (VariableTable.mem_of_get?_eq_some (VariableTable.item_eq_ok_iff.mp hbinding)).1
  unfold Scope.readVariable
  refine .get_bind ?_
  rw [h.beside.table]
  refine .bind (.lift h hitem) ?_
  rintro binding _ s' t' ⟨rfl, hmem⟩ h'
  have hload : Matching (fun a b => b = a ∧ binding.value.load s.files = .ok a)
      (binding.value.load s.files) (binding.value.load t.files) := by
    rw [h.beside.load_eq hmem]
    exact .self fun a ha => ⟨rfl, ha⟩
  refine .bind (.lift h' hload) ?_
  rintro loaded _ _ _ ⟨rfl, hloaded⟩ -
  refine .bind (.set ⟨h.files, ?_⟩) fun _ _ _ _ _ h => .pure h rfl
  exact h.beside.update hmem hloaded scope.settings

/-- A file whose path avoids the directory is read alike. -/
theorem agree_readFile_tracing (h : Along aside files s t) {name : Text}
    (havoids : files.Avoids aside (settings.resolveInput name)) (prepared : Prepared) :
    Run.Agree (Along aside files) Fault.IsQuiet Eq s t
      ((⟨settings.tracing false, prepared⟩ : Scope K V).readFile name)
      ((⟨settings.tracing true, prepared⟩ : Scope K V).readFile name) := by
  rw [← h.files] at havoids
  unfold Scope.readFile
  refine .get_bind ?_
  dsimp only
  have hresolve (on : Bool) : (settings.tracing on).resolveInput name =
      settings.resolveInput name := rfl
  have hquiet (on : Bool) : (settings.tracing on).quiet = settings.quiet := rfl
  rw [hresolve, hresolve, hquiet, hquiet, h.beside.files.pathExists_eq havoids]
  split
  next => exact .ite (fun _ => .throw_bind h rfl) fun _ => .throw_bind h rfl
  next hexists =>
    have hread := (h.beside.files.read_eq havoids.outside (by simpa using hexists)).2
    rw [Grid.read_congr hread]
    refine .bind (.traced h (fun record h => h.addRecord record)
      (.shared (Grid.isOpened_read s.files _))) ?_
    rintro grid _ _ _ ⟨rfl, hopened⟩ h
    rw [Grid.load_congr hopened.onDisk hread]
    exact .bind (.lift h (.of_eq rfl)) fun loaded loaded' _ _ hloaded h =>
      .pure h (congrArg Operand.grid hloaded)

/-- Tokens that refer to no file, or to one whose path avoids the directory, stand for the same. -/
theorem agree_resolveToken_tracing {prepared : Prepared} {token other : Text}
    (htoken : (⟨settings, prepared⟩ : Scope K V).Settles aside files token other)
    (h : Along aside files s t) :
    Run.Agree (Along aside files) Fault.IsQuiet Eq s t
      ((⟨settings.tracing false, prepared⟩ : Scope K V).resolveToken token)
      ((⟨settings.tracing true, prepared⟩ : Scope K V).resolveToken other) := by
  obtain ⟨rfl, havoids⟩ := htoken
  unfold Scope.reference? at havoids
  unfold Scope.resolveToken
  cases hliteral : (literal? other : Option V) with
  | some value => exact .pure h rfl
  | none =>
      dsimp only
      have hname : Run.Agree (Along aside files) Fault.IsQuiet Eq s t
          ((⟨settings.tracing false, prepared⟩ : Scope K V).resolveName (signedName other).2)
          ((⟨settings.tracing true, prepared⟩ : Scope K V).resolveName (signedName other).2) := by
        unfold Scope.resolveName
        cases hbound : prepared.name? (signedName other).2 with
        | some bound => exact agree_readVariable_tracing h bound
        | none =>
            dsimp only
            refine .ite (fun _ => .pure h rfl) fun hnodata => .ite (fun hsuffix => ?_) fun _ =>
              .throw h rfl
            have hpath : files.Avoids aside (settings.resolveInput (signedName other).2) := by
              refine havoids _ (if_pos ?_)
              simp [hliteral, hbound, hnodata, hsuffix]
            refine .bind (agree_readFile_tracing h hpath prepared) ?_
            rintro value _ _ _ rfl h
            exact .pure h rfl
      refine .bind hname ?_
      rintro part _ _ _ rfl h
      exact Scope.agree_signed h _ rfl (.self fun _ _ => rfl)

/-- A token that refers to a file is read from it. -/
theorem resolveToken_of_reference? {token : Text} {path : Path}
    (h : scope.reference? token = some path) :
    path = scope.settings.resolveInput (signedName token).2 ∧
      (scope.resolveToken token : Run K V S (Part K V S)) = (do
        let value ← scope.readFile (signedName token).2
        Scope.signed (signedName token).1
          ⟨substituteNodata scope.settings value, .file, (signedName token).2⟩) := by
  unfold Scope.reference? at h
  dsimp only at h
  split at h
  next hfile =>
    simp only [Bool.and_eq_true, Option.isNone_iff_eq_none, Bool.not_eq_true'] at hfile
    obtain ⟨⟨⟨hliteral, hbound⟩, hnodata⟩, hsuffix⟩ := hfile
    refine ⟨(Option.some.inj h).symm, ?_⟩
    unfold Scope.resolveToken Scope.resolveName
    rw [hliteral]
    dsimp only
    rw [hbound]
    dsimp only
    rw [hnodata, if_neg Bool.false_ne_true, if_pos hsuffix, bind_assoc]
    rfl
  next => cases h

/-- A token whose file is missing stops both evaluations. -/
theorem stuck_resolveToken_tracing {prepared : Prepared} {token : Text} {path : Path}
    (hpath : (⟨settings, prepared⟩ : Scope K V).reference? token = some path)
    (havoids : files.Avoids aside path) (hmissing : files.pathExists path = false)
    (h : Along aside files s t) :
    Run.Agree (Along aside files) Fault.IsQuiet (fun _ _ => False) s t
      ((⟨settings.tracing false, prepared⟩ : Scope K V).resolveToken token)
      ((⟨settings.tracing true, prepared⟩ : Scope K V).resolveToken token) := by
  have hread (on : Bool) : (⟨settings.tracing on, prepared⟩ : Scope K V).reference? token =
      some path := hpath
  obtain ⟨rfl, hplain⟩ := resolveToken_of_reference? (S := S) (hread false)
  obtain ⟨-, htraced⟩ := resolveToken_of_reference? (S := S) (hread true)
  rw [hplain, htraced]
  refine .bind (Q := fun _ _ => False) ?_ fun _ _ _ _ hfalse => hfalse.elim
  rw [← h.files] at havoids hmissing
  have hmissing' := h.beside.files.pathExists_eq havoids
  have hresolve (on : Bool) : (settings.tracing on).resolveInput (signedName token).2 =
      settings.resolveInput (signedName token).2 := rfl
  have hquiet (on : Bool) : (settings.tracing on).quiet = settings.quiet := rfl
  unfold Scope.readFile
  refine .get_bind ?_
  dsimp only at hmissing hmissing' ⊢
  rw [hresolve] at hmissing hmissing'
  rw [hresolve, hresolve, hquiet, hquiet, hmissing', hmissing]
  refine .ite (fun _ => ?_) fun hexists => absurd rfl hexists
  exact .ite (fun _ => .throw_bind h rfl) fun _ => .throw_bind h rfl

end Lookups

variable [Conversion K V]

/-- Evaluations of one text agree on all that settles. -/
theorem agrees_tracing (hdebug : settings.debug = false)
    (haside : aside = settings.traceDirectory files) (prepared : Prepared) :
    Scope.Agrees (Along (S := S) aside files) Fault.IsQuiet Eq
      ((⟨settings, prepared⟩ : Scope K V).Settles aside files)
      ⟨settings.tracing false, prepared⟩ ⟨settings.tracing true, prepared⟩ where
  depth := rfl
  number h := h.nextId.within Pending.along
  token h htoken := agree_resolveToken_tracing htoken h
  merge op h hleft hright := by
    refine Scope.agree_mergeLinks (P := Pending aside files) Pending.along Along.nextId h
      (fun record h => h.addRecord record) ?_ ?_
    · rw [← hleft, ← hright]
      exact .self fun _ _ _ _ => rfl
    · intro s t number value value' h hvalue
      obtain rfl := (Part.mk.inj hvalue).1
      rw [← hleft, ← hright]
      exact agree_emit_tracing hdebug haside h _ _
  call {s t parts parts'} function h hparts := by
    obtain rfl : parts = parts' := List.forall₂_eq_eq_eq ▸ hparts
    refine Scope.agree_call (P := Pending aside files) Pending.along Along.nextId h
      (fun record h => h.addRecord record) (.self fun _ _ _ _ => rfl) ?_
    intro s t number value value' h hvalue
    obtain rfl := (Part.mk.inj hvalue).1
    exact agree_emit_tracing hdebug haside h _ _
  negate := by
    rintro part _ rfl
    exact .self fun _ _ => rfl

/-- The files that a prepared expression refers to from left to right. -/
def Scope.references (scope : Scope K V) : List Path :=
  (readChain [] scope.prepared.text).1.tokens.filterMap scope.reference?

/-- Tokens that settle up to one whose file is missing, if there is one. -/
inductive Scope.SettlesUntil (scope : Scope K V) (aside : Path) (files : FileTree)
    (tokens : List Text) : Prop
  | intro {front back : List Text} (heq : tokens = front ++ back)
      (hfront : ∀ token ∈ front, scope.Settles aside files token token)
      (hback : ∀ token ∈ back.head?, ∃ path, scope.reference? token = some path ∧
        files.Avoids aside path ∧ files.pathExists path = false) :
      Scope.SettlesUntil scope aside files tokens

omit [Coordinate K] [Conversion K V] in
theorem Scope.SettlesUntil.cons {scope : Scope K V} {token : Text} {rest : List Text}
    (htoken : scope.Settles aside files token token) (h : scope.SettlesUntil aside files rest) :
    scope.SettlesUntil aside files (token :: rest) := by
  obtain ⟨heq, hfront, hback⟩ := h
  exact .intro (congrArg (token :: ·) heq) (List.forall_mem_cons.mpr ⟨htoken, hfront⟩) hback

omit [Coordinate K] [Conversion K V] in
/-- Tokens settle as far as they are read when the files that are looked for avoid the directory. -/
theorem settlesUntil_of_sought {scope : Scope K V} {tokens : List Text}
    (h : ∀ path ∈ files.sought (tokens.filterMap scope.reference?), files.Avoids aside path) :
    scope.SettlesUntil aside files tokens := by
  induction tokens with
  | nil => exact .intro rfl (List.forall_mem_nil _) nofun
  | cons token rest ih =>
      cases hreference : scope.reference? token with
      | none =>
          rw [List.filterMap_cons_none hreference] at h
          exact (ih h).cons ⟨rfl, fun path hpath => absurd (hreference.symm.trans hpath) nofun⟩
      | some path =>
          rw [List.filterMap_cons_some hreference, FileTree.sought] at h
          have hpath := h path List.mem_cons_self
          cases hexists : files.pathExists path with
          | false =>
              refine .intro rfl (List.forall_mem_nil _) fun other hother => ?_
              cases hother
              exact ⟨path, hreference, hpath, hexists⟩
          | true =>
              rw [hexists, if_pos rfl] at h
              refine (ih fun other hother => h other (List.mem_cons_of_mem _ hother)).cons
                ⟨rfl, fun other hother => ?_⟩
              cases hreference.symm.trans hother
              exact hpath

/-- Expressions are parsed alike when the files they look for avoid the directory. -/
theorem agree_parse_tracing (hdebug : settings.debug = false)
    (haside : aside = settings.traceDirectory files) (h : Along aside files s t) {source : Text}
    (hreads : ∀ prepared, prepare source s.table.namesLongestFirst = .ok prepared →
      ∀ path ∈ files.sought (⟨settings, prepared⟩ : Scope K V).references,
        files.Avoids aside path) :
    Run.Agree (Along aside files) Fault.IsQuiet Eq s t (parse (settings.tracing false) source)
      (parse (settings.tracing true) source) := by
  unfold parse
  refine .get_bind ?_
  rw [h.beside.table]
  cases hprepare : prepare source s.table.namesLongestFirst with
  | error fault => exact .throw h rfl
  | ok prepared =>
      have hagrees := agrees_tracing (S := S) hdebug haside prepared
      obtain @⟨front, back, htokens, hfront, hback⟩ :=
        settlesUntil_of_sought (hreads prepared hprepare)
      cases back with
      | nil =>
          rw [List.append_nil] at htokens
          refine (agree_evaluate hagrees (Chain.like_self (htokens ▸ hfront)) h).mono ?_
          rintro _ _ ⟨part, _, rfl, rfl, rfl⟩
          rfl
      | cons token back =>
          obtain ⟨path, hpath, havoids, hmissing⟩ := hback token rfl
          exact (stuck_evaluate hagrees (stuck_resolveToken_tracing hpath havoids hmissing) htokens
            hfront h).mono fun _ _ hfalse => hfalse.elim

end Expression

end MapAlgebra
