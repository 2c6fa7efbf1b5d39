import Mathlib.Data.List.Forall2
import Mathlib.Data.List.Nodup
import MapAlgebra.Expression.Evaluation
import MapAlgebra.Proofs.Files

/-!
# Bindings

Evaluation loads bound grids and keeps them loaded. Binding a value gives it a slot of its own and
leaves the other bindings alone.
-/

namespace MapAlgebra

variable {K V S α β : Type}

/-- Loading a grid makes the cells resident that it has or that stand in its file. -/
theorem Grid.load_eq_ok [Coordinate K] [Number V] [Cell S V] {files : FileTree}
    {grid loaded : Grid K V S} (h : grid.load files = .ok loaded) :
    ∃ cells, loaded = { grid with cells := .resident cells } ∧
      (grid.cells = .resident cells ∨
        ∃ path, grid.cells = .onDisk path ∧ Idf.readCells (K := K) files path = .ok cells) := by
  unfold load at h
  split at h
  next cells hcells =>
    cases h
    exact ⟨cells, by rw [← hcells], .inl hcells⟩
  next path hcells =>
    cases hread : Idf.readCells (K := K) files path (S := S) with
    | error fault =>
        rw [hread] at h
        cases h
    | ok cells =>
        rw [hread] at h
        cases h
        exact ⟨cells, rfl, .inr ⟨path, hcells, hread⟩⟩

/-- What stands in for NoData cells is all that changes when they take part in calculations. -/
theorem Expression.exists_substituteNodata_eq (settings : Settings K V) (grid : Grid K V S) :
    ∃ substitute, substituteNodata settings (.grid grid) = .grid { grid with substitute } := by
  unfold substituteNodata
  dsimp only
  split
  next => exact ⟨_, rfl⟩
  next => exact ⟨_, rfl⟩

/-- A bound value that may have been loaded since. One without a file keeps its cells. -/
inductive Operand.Reloaded : Operand K V S → Operand K V S → Prop
  | constant (c : Constant V) : Reloaded (.constant c) (.constant c)
  | grid {before after : Grid K V S} (hslot : after.slot = before.slot)
      (hpath : after.path = before.path) (hrows : after.rows = before.rows)
      (hcols : after.cols = before.cols)
      (hcells : before.path = none → before.isLoaded → after.cells = before.cells) :
      Reloaded (.grid before) (.grid after)

namespace Operand.Reloaded

variable {before between after : Operand K V S}

theorem refl (operand : Operand K V S) : Reloaded operand operand := by
  cases operand with
  | constant c => exact .constant c
  | grid g => exact .grid rfl rfl rfl rfl fun _ _ => rfl

theorem trans (h : Reloaded before between) (h' : Reloaded between after) :
    Reloaded before after := by
  cases h with
  | constant c => exact h'
  | grid hslot hpath hrows hcols hcells =>
      cases h' with
      | grid hslot' hpath' hrows' hcols' hcells' =>
          refine .grid (hslot'.trans hslot) (hpath'.trans hpath) (hrows'.trans hrows)
            (hcols'.trans hcols) fun hnone hloaded => ?_
          have hkept := hcells hnone hloaded
          refine (hcells' (hpath.trans hnone) ?_).trans hkept
          unfold Grid.isLoaded at hloaded ⊢
          rwa [hkept]

theorem slot_eq (h : Reloaded before after) : after.slot = before.slot := by
  cases h with
  | constant c => rfl
  | grid hslot => exact hslot

end Operand.Reloaded

/-- A bound value with the cells and the substitute for NoData that it has once it is loaded. Cells
in memory stay. -/
inductive Operand.SameMap : Operand K V S → Operand K V S → Prop
  | constant (c : Constant V) : SameMap (.constant c) (.constant c)
  | grid (before : Grid K V S) (cells : Residence S) (substitute : Option V)
      (hcells : before.isLoaded → cells = before.cells) :
      SameMap (.grid before) (.grid { before with cells, substitute })

namespace Operand.SameMap

variable {before between after : Operand K V S}

theorem refl (operand : Operand K V S) : SameMap operand operand := by
  cases operand with
  | constant c => exact .constant c
  | grid g => exact .grid g g.cells g.substitute fun _ => rfl

theorem trans (h : SameMap before between) (h' : SameMap between after) :
    SameMap before after := by
  cases h with
  | constant c => exact h'
  | grid g cells substitute hcells =>
      cases h' with
      | grid _ cells' substitute' hcells' =>
          refine .grid g cells' substitute' fun hloaded => ?_
          have hkept := hcells hloaded
          refine (hcells' ?_).trans hkept
          unfold Grid.isLoaded at hloaded ⊢
          rwa [hkept]

theorem reloaded (h : SameMap before after) : before.Reloaded after := by
  cases h with
  | constant c => exact .constant c
  | grid g cells substitute hcells => exact .grid rfl rfl rfl rfl fun _ => hcells

theorem slot_eq (h : SameMap before after) : after.slot = before.slot :=
  h.reloaded.slot_eq

/-- A value is loaded, and NoData cells may take part in calculations from then on. -/
theorem of_load [Coordinate K] [Number V] [Cell S V] {files : FileTree} {settings : Settings K V}
    (h : before.load files = .ok after) :
    SameMap before (Expression.substituteNodata settings after) := by
  cases before with
  | constant c =>
      cases h
      exact .constant c
  | grid g =>
      cases hload : g.load files with
      | error fault =>
          simp only [load, hload, bind, Except.bind] at h
          cases h
      | ok loaded =>
          simp only [load, hload, bind, Except.bind] at h
          cases h
          obtain ⟨cells, rfl, hcells⟩ := Grid.load_eq_ok hload
          -- cells in memory are not read again
          have hkept : g.isLoaded → Residence.resident cells = g.cells := by
            intro hloaded
            rcases hcells with hcells | ⟨path, hcells, -⟩
            · exact hcells.symm
            · unfold Grid.isLoaded at hloaded
              rw [hcells] at hloaded
              cases hloaded
          obtain ⟨substitute, hvalue⟩ := Expression.exists_substituteNodata_eq settings
            { g with cells := .resident cells }
          rw [hvalue]
          exact .grid g _ substitute hkept

end Operand.SameMap

theorem Operand.Reloaded.of_load [Coordinate K] [Number V] [Cell S V] {files : FileTree}
    {settings : Settings K V} {before after : Operand K V S} (h : before.load files = .ok after) :
    Reloaded before (Expression.substituteNodata settings after) :=
  (SameMap.of_load h).reloaded

theorem exists_of_forall₂ {R : α → β → Prop} {before : List α} {after : List β}
    (h : List.Forall₂ R before after) {now : β} (hnow : now ∈ after) :
    ∃ old ∈ before, R old now := by
  induction h with
  | nil => cases hnow
  | cons hhead _ ih =>
      rcases List.mem_cons.mp hnow with rfl | hmem
      · exact ⟨_, List.mem_cons_self, hhead⟩
      · obtain ⟨old, hold, hrelated⟩ := ih hmem
        exact ⟨old, List.mem_cons_of_mem _ hold, hrelated⟩

/-- A binding whose value may have been loaded since. -/
structure Binding.Reloaded (before after : Binding K V S) : Prop where
  name : after.name = before.name
  value : before.value.Reloaded after.value

/-- Bindings whose values may have been loaded since. -/
abbrev Reloaded (before after : List (Binding K V S)) : Prop :=
  List.Forall₂ Binding.Reloaded before after

namespace Reloaded

variable {before between after : List (Binding K V S)}

theorem refl (bindings : List (Binding K V S)) : Reloaded bindings bindings :=
  List.forall₂_same.mpr fun binding _ => ⟨rfl, .refl binding.value⟩

theorem trans (h : Reloaded before between) (h' : Reloaded between after) :
    Reloaded before after := by
  induction h generalizing after with
  | nil => exact h'
  | cons hhead _ ih =>
      cases h' with
      | cons hhead' hrest' =>
          exact .cons ⟨hhead'.name.trans hhead.name, hhead.value.trans hhead'.value⟩ (ih hrest')

theorem names_eq (h : Reloaded before after) :
    after.map (fun binding => VariableTable.key binding.name) =
      before.map fun binding => VariableTable.key binding.name := by
  induction h with
  | nil => rfl
  | cons hhead _ ih => rw [List.map_cons, List.map_cons, ih, hhead.name]

theorem slots_eq (h : Reloaded before after) :
    after.map (·.value.slot) = before.map (·.value.slot) := by
  induction h with
  | nil => rfl
  | cons hhead _ ih => rw [List.map_cons, List.map_cons, ih, hhead.value.slot_eq]

theorem exists_of_mem (h : Reloaded before after) {now : Binding K V S} (hnow : now ∈ after) :
    ∃ old ∈ before, old.Reloaded now :=
  exists_of_forall₂ h hnow

/-- What is found by name may have been loaded. -/
theorem find?_eq_some (h : Reloaded before after) {name : Text} {binding : Binding K V S}
    (hbinding : before.find? (fun binding => VariableTable.key binding.name == name) =
      some binding) :
    ∃ now, after.find? (fun binding => VariableTable.key binding.name == name) = some now ∧
      binding.Reloaded now := by
  induction h with
  | nil => cases hbinding
  | cons hhead _ ih =>
      rw [List.find?_cons] at hbinding ⊢
      rw [hhead.name]
      split at hbinding
      next =>
        cases hbinding
        exact ⟨_, rfl, hhead⟩
      next => exact ih hbinding

end Reloaded

namespace VariableTable

variable {table : VariableTable K V S}

/-- Bindings of different names, with values at different slots. -/
structure Apart (bindings : List (Binding K V S)) : Prop where
  names : (bindings.map fun binding => key binding.name).Nodup
  slots : (bindings.map (·.value.slot)).Nodup

theorem Apart.of_reloaded {before after : List (Binding K V S)} (hapart : Apart before)
    (h : Reloaded before after) : Apart after where
  names := h.names_eq ▸ hapart.names
  slots := h.slots_eq ▸ hapart.slots

theorem mem_of_get?_eq_some {name : Text} {binding : Binding K V S}
    (h : table.get? name = some binding) :
    binding ∈ table.bindings ∧ key binding.name = key name :=
  ⟨List.mem_of_find?_eq_some h, by simpa using List.find?_some h⟩

theorem item_eq_ok_iff {name : Text} {binding : Binding K V S} :
    table.item name = .ok binding ↔ table.get? name = some binding := by
  unfold item
  split
  next found hfound => rw [hfound, Except.ok.injEq, Option.some.injEq]
  next hnone => simp [hnone]

theorem mem_or_value_of_mem_update {value : Operand K V S} {binding : Binding K V S}
    (h : binding ∈ (table.update value).bindings) :
    binding ∈ table.bindings ∨ binding.value = value := by
  unfold update at h
  split at h
  next => exact .inl h
  next =>
    obtain ⟨old, hold, rfl⟩ := List.mem_map.mp h
    split
    next => exact .inr rfl
    next => exact .inl hold

/-- A value with the slot of a bound one takes its place and that of no other. -/
theorem forall₂_update {R : Binding K V S → Binding K V S → Prop} (hrefl : ∀ other, R other other)
    (hapart : Apart table.bindings) {binding : Binding K V S} (hbinding : binding ∈ table.bindings)
    {value : Operand K V S} (hslot : value.slot = binding.value.slot)
    (hvalue : R binding { binding with value }) :
    List.Forall₂ R table.bindings (table.update value).bindings := by
  unfold update
  split
  next => exact List.forall₂_same.mpr fun other _ => hrefl other
  next =>
    refine List.forall₂_map_right_iff.mpr (List.forall₂_same.mpr fun other hother => ?_)
    split
    next hsame =>
      -- a slot tells bindings apart, so the value goes to the binding it came from
      have heq : other = binding :=
        List.inj_on_of_nodup_map hapart.slots hother hbinding
          ((beq_iff_eq.mp hsame).trans hslot)
      subst heq
      exact hvalue
    next => exact hrefl other

/-- A loaded value takes the place of the bound one and of no other. -/
theorem update_reloaded (hapart : Apart table.bindings) {binding : Binding K V S}
    (hbinding : binding ∈ table.bindings) {value : Operand K V S}
    (hvalue : binding.value.Reloaded value) :
    Reloaded table.bindings (table.update value).bindings :=
  forall₂_update (fun other => ⟨rfl, .refl other.value⟩) hapart hbinding hvalue.slot_eq
    ⟨rfl, hvalue⟩

/-- The binding as a table keeps it, its value at a slot. -/
def kept (table : VariableTable K V S) (binding : Binding K V S) : Binding K V S :=
  { binding with value := (table.keep binding.value).1 }

theorem bindings_keep (value : Operand K V S) :
    (table.keep value).2.bindings = table.bindings := by
  unfold keep
  split <;> rfl

theorem bindings_bind (binding : Binding K V S) :
    (table.bind binding).bindings =
      if table.contains binding.name then
        table.bindings.map fun old =>
          if key old.name == key binding.name then table.kept binding else old
      else table.bindings ++ [table.kept binding] := by
  have hcontains : (table.keep binding.value).2.contains binding.name =
      table.contains binding.name := by
    unfold contains get?
    rw [bindings_keep]
  unfold bind
  dsimp only
  rw [hcontains]
  split
  next => exact congrArg (List.map _) (bindings_keep _)
  next => exact congrArg (· ++ _) (bindings_keep _)

/-- A name finds what was bound to it last, and other names find what they found. -/
theorem get?_bind (binding : Binding K V S) (name : Text) :
    (table.bind binding).get? name =
      if key name = key binding.name then some (table.kept binding) else table.get? name := by
  have hkept : key (table.kept binding).name = key binding.name := rfl
  unfold get?
  rw [bindings_bind]
  split
  next hcontains =>
    rw [find?_replace (fun old : Binding K V S => key old.name) hkept]
    split
    next =>
      obtain ⟨found, hfound⟩ := Option.isSome_iff_exists.mp hcontains
      unfold get? at hfound
      rw [hfound]
      rfl
    next => rfl
  next hcontains =>
    rw [List.find?_append, List.find?_singleton, hkept]
    have hnone : table.get? binding.name = none := by simpa [contains] using hcontains
    unfold get? at hnone
    by_cases hname : key name = key binding.name
    · rw [hname, hnone, Option.none_or, if_pos (beq_self_eq_true _), if_pos rfl]
    · have hother : ¬ (key binding.name == key name) = true := by simpa using Ne.symm hname
      rw [if_neg hother, if_neg hname, Option.or_none]

/-- Values at slots below the next free one. -/
def Fresh (table : VariableTable K V S) : Prop :=
  ∀ binding ∈ table.bindings, ∃ slot < table.nextSlot, binding.value.slot = some slot

theorem Fresh.of_reloaded {next : VariableTable K V S} (hfresh : Fresh table)
    (hslot : next.nextSlot = table.nextSlot) (h : Reloaded table.bindings next.bindings) :
    Fresh next := by
  intro binding hbinding
  have hmem : binding.value.slot ∈ table.bindings.map (·.value.slot) :=
    h.slots_eq ▸ List.mem_map_of_mem hbinding
  obtain ⟨old, hold, heq⟩ := List.mem_map.mp hmem
  rw [hslot, ← heq]
  exact hfresh old hold

theorem mem_bind {binding other : Binding K V S} (h : other ∈ (table.bind binding).bindings) :
    other ∈ table.bindings ∨ other = table.kept binding := by
  rw [bindings_bind] at h
  split at h
  next =>
    obtain ⟨old, hold, rfl⟩ := List.mem_map.mp h
    split
    next => exact .inr rfl
    next => exact .inl hold
  next =>
    rcases List.mem_append.mp h with hold | hnew
    · exact .inl hold
    · exact .inr (List.mem_singleton.mp hnew)

/-- A value without a slot gets the next one. -/
theorem value_kept {binding : Binding K V S} (h : binding.value.slot = none) :
    (table.kept binding).value = binding.value.atSlot table.nextSlot := by
  unfold kept keep
  rw [h]

theorem slot_kept {binding : Binding K V S} (h : binding.value.slot = none) :
    (table.kept binding).value.slot = some table.nextSlot := by
  rw [value_kept h]
  cases binding.value <;> rfl

theorem nextSlot_bind {binding : Binding K V S} (h : binding.value.slot = none) :
    (table.bind binding).nextSlot = table.nextSlot + 1 := by
  unfold bind keep
  rw [h]
  dsimp only
  split <;> rfl

theorem fresh_bind (hfresh : Fresh table) {binding : Binding K V S}
    (h : binding.value.slot = none) : Fresh (table.bind binding) := by
  intro other hother
  rw [nextSlot_bind h]
  rcases mem_bind hother with hold | rfl
  · obtain ⟨slot, hlt, hslot⟩ := hfresh other hold
    exact ⟨slot, Nat.lt_succ_of_lt hlt, hslot⟩
  · exact ⟨table.nextSlot, Nat.lt_succ_self _, slot_kept h⟩

/-- A binding with a slot of its own takes the place of the one of its name. -/
theorem Apart.replace {bindings : List (Binding K V S)} (hapart : Apart bindings)
    {new : Binding K V S} (hslot : ∀ old ∈ bindings, old.value.slot ≠ new.value.slot) :
    Apart (bindings.map fun old => if key old.name == key new.name then new else old) := by
  have hnames (old : Binding K V S) :
      key (if key old.name == key new.name then new else old).name = key old.name := by
    split
    next hname => exact (beq_iff_eq.mp hname).symm
    next => rfl
  constructor
  · rw [List.map_map]
    exact (congrArg List.Nodup (List.map_congr_left fun old _ => hnames old)).mpr hapart.names
  · rw [List.map_map, List.nodup_map_iff_inj_on (List.Nodup.of_map _ hapart.names)]
    intro a ha b hb hab
    dsimp only [Function.comp] at hab
    -- two slots agree when both are old, or when both bindings gave way to the new one
    split at hab
    next hname =>
      split at hab
      next hname' =>
        exact List.inj_on_of_nodup_map hapart.names ha hb
          ((beq_iff_eq.mp hname).trans (beq_iff_eq.mp hname').symm)
      next => exact absurd hab.symm (hslot b hb)
    next =>
      split at hab
      next => exact absurd hab (hslot a ha)
      next => exact List.inj_on_of_nodup_map hapart.slots ha hb hab

/-- A binding of a new name with a slot of its own comes last. -/
theorem Apart.append {bindings : List (Binding K V S)} (hapart : Apart bindings)
    {new : Binding K V S} (hname : ∀ old ∈ bindings, key old.name ≠ key new.name)
    (hslot : ∀ old ∈ bindings, old.value.slot ≠ new.value.slot) : Apart (bindings ++ [new]) := by
  constructor
  · rw [List.map_append, List.nodup_append]
    refine ⟨hapart.names, List.nodup_singleton _, ?_⟩
    intro name hmem name' hmem'
    obtain ⟨old, hold, rfl⟩ := List.mem_map.mp hmem
    rw [List.mem_singleton.mp hmem']
    exact hname old hold
  · rw [List.map_append, List.nodup_append]
    refine ⟨hapart.slots, List.nodup_singleton _, ?_⟩
    intro slot hmem slot' hmem'
    obtain ⟨old, hold, rfl⟩ := List.mem_map.mp hmem
    rw [List.mem_singleton.mp hmem']
    exact hslot old hold

/-- A value without a slot is bound apart from the others. -/
theorem apart_bind (hapart : Apart table.bindings) (hfresh : Fresh table)
    {binding : Binding K V S} (h : binding.value.slot = none) :
    Apart (table.bind binding).bindings := by
  have hslot (old : Binding K V S) (hold : old ∈ table.bindings) :
      old.value.slot ≠ (table.kept binding).value.slot := by
    obtain ⟨slot, hlt, heq⟩ := hfresh old hold
    rw [heq, slot_kept h]
    intro hsame
    exact absurd (Option.some.inj hsame) (Nat.ne_of_lt hlt)
  rw [bindings_bind]
  split
  next => exact hapart.replace hslot
  next hcontains =>
    refine hapart.append (fun old hold => ?_) hslot
    have hnone : table.get? binding.name = none := by simpa [contains] using hcontains
    have hmiss : key old.name ≠ key binding.name := by
      simpa using List.find?_eq_none.mp hnone old hold
    exact hmiss

/-- The binding with its cells given up, if they can be read again. -/
def released [Coordinate K] [Number V] [Cell S V] (files : FileTree) (binding : Binding K V S) :
    Binding K V S :=
  { binding with value := (binding.value.release? files).getD binding.value }

theorem get?_releaseAll [Coordinate K] [Number V] [Cell S V] (table : VariableTable K V S)
    (files : FileTree) (name : Text) :
    (table.releaseAll files).1.get? name = (table.get? name).map (released files) := by
  unfold get? releaseAll
  dsimp only
  rw [List.find?_map]
  rfl

/-- A value stays as it is, or it is a grid whose cells are in its file from then on. -/
theorem value_released_eq_or [Coordinate K] [Number V] [Cell S V] (files : FileTree)
    (binding : Binding K V S) :
    (released files binding).value = binding.value ∨
      ∃ grid path, binding.value = .grid grid ∧ grid.path = some path ∧
        (released files binding).value = .grid { grid with cells := .onDisk path } := by
  unfold released
  cases hvalue : binding.value with
  | constant c => exact .inl rfl
  | grid g =>
      unfold Operand.release? Grid.release?
      dsimp only
      split
      next path hpath =>
        split
        next => exact .inr ⟨g, path, rfl, hpath, rfl⟩
        next => exact .inl rfl
      next => exact .inl rfl

theorem slot_released [Coordinate K] [Number V] [Cell S V] (files : FileTree)
    (binding : Binding K V S) : (released files binding).value.slot = binding.value.slot := by
  rcases value_released_eq_or files binding with hsame | ⟨grid, path, hgrid, -, hvalue⟩
  · rw [hsame]
  · rw [hvalue, hgrid]
    rfl

/-- Giving up cells keeps bindings apart. -/
theorem apart_releaseAll [Coordinate K] [Number V] [Cell S V] (files : FileTree)
    (h : Apart table.bindings) : Apart (table.releaseAll files).1.bindings := by
  have hbindings : (table.releaseAll files).1.bindings = table.bindings.map (released files) := rfl
  constructor
  · rw [hbindings, List.map_map]
    exact h.names
  · have hslots : (·.value.slot) ∘ released files = fun binding : Binding K V S =>
        binding.value.slot := funext (slot_released files)
    rw [hbindings, List.map_map, hslots]
    exact h.slots

theorem fresh_releaseAll [Coordinate K] [Number V] [Cell S V] (files : FileTree)
    (h : Fresh table) : Fresh (table.releaseAll files).1 := by
  intro binding hbinding
  obtain ⟨old, hold, rfl⟩ := List.mem_map.mp hbinding
  obtain ⟨slot, hlt, hslot⟩ := h old hold
  exact ⟨slot, hlt, (slot_released files old).trans hslot⟩

/-- A table in which every value has a slot of its own. -/
structure Slotted (table : VariableTable K V S) : Prop where
  apart : Apart table.bindings
  fresh : table.Fresh

namespace Slotted

theorem empty : Slotted ({} : VariableTable K V S) where
  apart := ⟨List.nodup_nil, List.nodup_nil⟩
  fresh _ hmem := absurd hmem List.not_mem_nil

theorem of_reloaded {next : VariableTable K V S} (h : Slotted table)
    (hslot : next.nextSlot = table.nextSlot) (hloaded : Reloaded table.bindings next.bindings) :
    Slotted next where
  apart := h.apart.of_reloaded hloaded
  fresh := h.fresh.of_reloaded hslot hloaded

theorem bind (h : Slotted table) {binding : Binding K V S} (hslot : binding.value.slot = none) :
    Slotted (table.bind binding) where
  apart := apart_bind h.apart h.fresh hslot
  fresh := fresh_bind h.fresh hslot

theorem releaseAll [Coordinate K] [Number V] [Cell S V] (h : Slotted table) (files : FileTree) :
    Slotted (table.releaseAll files).1 where
  apart := apart_releaseAll files h.apart
  fresh := fresh_releaseAll files h.fresh

end Slotted

end VariableTable

end MapAlgebra
