import Mathlib.Data.List.Basic
import MapAlgebra.Files.Tree

/-!
# Files that stay

Nothing a run does takes a directory away or moves what a path names. Directories are only added,
and writing a file changes what stands at one place.
-/

namespace MapAlgebra

/-- What is found by a key among entries some of which were replaced by one with a key. -/
theorem find?_replace {α κ : Type} [BEq κ] [LawfulBEq κ] [DecidableEq κ] (keyOf : α → κ)
    {new : α} {key : κ} (hnew : keyOf new = key) (entries : List α) (other : κ) :
    (entries.map fun entry => if keyOf entry == key then new else entry).find?
        (fun entry => keyOf entry == other) =
      if other = key then (entries.find? fun entry => keyOf entry == key).map fun _ => new
      else entries.find? fun entry => keyOf entry == other := by
  induction entries with
  | nil => simp
  | cons entry rest ih =>
      rw [List.map_cons, List.find?_cons, List.find?_cons, List.find?_cons, ih]
      by_cases hentry : keyOf entry = key
      · by_cases hother : other = key
        · simp [hentry, hother, hnew]
        · have hother' : (key == other) = false := beq_eq_false_iff_ne.mpr (Ne.symm hother)
          simp [hentry, hother, hother', hnew]
      · have hentry' : (keyOf entry == key) = false := beq_eq_false_iff_ne.mpr hentry
        by_cases hother : other = key
        · simp [hentry', hother]
        · simp [hentry', hother]

namespace FileTree

variable {tree before after : FileTree} {path : Path} {place : Place}

theorem node?_put (hplace : place ≠ []) (node : Node) (other : Place) :
    (tree.put place node).node? other = if other = place then some node else tree.node? other := by
  unfold node? put
  -- the root is a directory whatever the entries say
  by_cases hroot : other = []
  · subst hroot
    rw [if_neg hplace.symm]
    rfl
  · have hempty : ¬ (other.isEmpty = true) := by simpa using hroot
    rw [if_neg hempty, if_neg hempty]
    split
    next hany =>
      dsimp only
      have hat : (place, node).1 = place := rfl
      rw [find?_replace Prod.fst hat]
      obtain ⟨entry, hfound⟩ := Option.isSome_iff_exists.mp (List.find?_isSome.mpr
        (List.any_eq_true.mp hany))
      split
      next =>
        rw [hfound]
        rfl
      next => rfl
    next hany =>
      dsimp only
      have hnone : tree.entries.find? (fun entry => entry.1 == place) = none :=
        List.find?_eq_none.mpr fun entry hentry hat =>
          hany (List.any_eq_true.mpr ⟨entry, hentry, hat⟩)
      rw [List.find?_append]
      split
      next heq =>
        rw [heq, hnone]
        simp
      next hne =>
        rw [List.find?_singleton, if_neg (by simpa using Ne.symm hne), Option.or_none]

theorem current_put (tree : FileTree) (place : Place) (node : Node) :
    (tree.put place node).current = tree.current := by
  unfold put
  split <;> rfl

/-- A tree in which the same directories stand, and maybe more. -/
structure SameDirectories (before after : FileTree) : Prop where
  current : after.current = before.current
  directory : ∀ place, before.node? place = some .directory → after.node? place = some .directory

/-- A tree in which everything stands that stood before. -/
structure Extends (before after : FileTree) : Prop where
  current : after.current = before.current
  node : ∀ place node, before.node? place = some node → after.node? place = some node

namespace Extends

theorem refl (tree : FileTree) : Extends tree tree :=
  ⟨rfl, fun _ _ h => h⟩

theorem trans {between : FileTree} (h : Extends before between) (h' : Extends between after) :
    Extends before after :=
  ⟨h'.current.trans h.current, fun place node hnode => h'.node place node (h.node place node hnode)⟩

theorem sameDirectories (h : Extends before after) : SameDirectories before after :=
  ⟨h.current, fun place => h.node place _⟩

end Extends

namespace SameDirectories

theorem refl (tree : FileTree) : SameDirectories tree tree :=
  ⟨rfl, fun _ h => h⟩

theorem trans {between : FileTree} (h : SameDirectories before between)
    (h' : SameDirectories between after) : SameDirectories before after :=
  ⟨h'.current.trans h.current, fun place hplace => h'.directory place (h.directory place hplace)⟩

theorem follow_eq_ok (h : SameDirectories before after) {start : Place} {names : List Text}
    (hfollow : before.follow start names = .ok place) : after.follow start names = .ok place := by
  -- names are followed one by one, and all but the last have to lead to directories
  fun_induction before.follow start names with
  | case1 start => exact hfollow
  | case2 start rest ih =>
      rw [follow]
      exact ih hfollow
  | case3 start name hname =>
      rw [follow]
      · exact hfollow
      · exact hname
  | case4 start name rest hne hname hnode ih =>
      rw [follow]
      · rw [h.directory _ hnode]
        exact ih hfollow
      · exact hne
      · exact hname
  | case5 start name rest hne hname bytes hnode => cases hfollow
  | case6 start name rest hne hname hnode => cases hfollow

/-- A path names the place that it named. -/
theorem place_eq_ok (h : SameDirectories before after) (hplace : before.place path = .ok place) :
    after.place path = .ok place := by
  unfold FileTree.place at hplace ⊢
  rw [h.current]
  split at hplace
  next => cases hplace
  next hname =>
    rw [if_neg hname]
    exact h.follow_eq_ok hplace

end SameDirectories

theorem put_extends {node : Node} (hplace : tree.node? place = none) :
    Extends tree (tree.put place node) := by
  have hne : place ≠ [] := by
    rintro rfl
    cases hplace
  constructor
  · exact current_put ..
  · intro other found hother
    rw [node?_put hne]
    split
    next heq =>
      rw [heq, hplace] at hother
      cases hother
    next => exact hother

theorem makeDirectory_extends (h : before.makeDirectory path = .ok after) :
    Extends before after := by
  unfold makeDirectory at h
  cases hplace : before.place path with
  | error fault =>
      rw [hplace] at h
      cases h
  | ok place =>
      rw [hplace] at h
      dsimp only [bind, Except.bind] at h
      split at h
      next => cases h
      next hnone =>
        split at h
        next =>
          cases h
          exact put_extends hnone
        next => cases h
        next => cases h

theorem ensureDirectory_extends (h : before.ensureDirectory path = .ok after) :
    Extends before after := by
  unfold ensureDirectory at h
  split at h
  next tree hmade =>
    cases h
    exact makeDirectory_extends hmade
  next =>
    split at h
    next =>
      cases h
      exact .refl _
    next => cases h

theorem ensureDirectories_extends (tree : FileTree) (path : Path) :
    Extends tree (tree.ensureDirectories path).2 := by
  unfold ensureDirectories
  generalize path.parts.length = depth
  -- up to the first directory that can be made, and down again from it
  fun_induction ensureDirectories.go depth path tree with
  | case1 depth path tree made hmade => exact makeDirectory_extends hmade
  | case2 path tree hmade => exact .refl _
  | case3 path tree hmade depth fault made hmade' ih =>
      rw [hmade'] at ih
      exact ih
  | case4 path tree hmade depth made hmade' above habove ih =>
      rw [hmade'] at ih
      exact ih.trans (ensureDirectory_extends habove)
  | case5 path tree hmade depth made hmade' fault hfault ih =>
      rw [hmade'] at ih
      exact ih
  | case6 => exact .refl _
  | case7 => exact .refl _

theorem read_eq_ok_iff {bytes : List UInt8} :
    tree.read path = .ok bytes ↔
      ∃ place, tree.place path = .ok place ∧ tree.node? place = some (.file bytes) := by
  unfold read
  cases hplace : tree.place path with
  | error fault =>
      constructor
      · intro h
        cases h
      · rintro ⟨place, h, -⟩
        cases h
  | ok place =>
      dsimp only [bind, Except.bind]
      constructor
      · intro h
        split at h
        next hnode =>
          cases h
          exact ⟨place, rfl, hnode⟩
        next => cases h
        next => cases h
      · rintro ⟨_, hplace, hnode⟩
        cases hplace
        rw [hnode]

/-- Writing a file puts it at its place, where no directory stands. -/
theorem write_eq_put {bytes : List UInt8} (h : before.write path bytes = .ok after) :
    ∃ place, before.place path = .ok place ∧ before.node? place ≠ some .directory ∧
      after = before.put place (.file bytes) := by
  unfold write at h
  cases hplace : before.place path with
  | error fault =>
      rw [hplace] at h
      cases h
  | ok place =>
      rw [hplace] at h
      dsimp only [bind, Except.bind] at h
      refine ⟨place, rfl, ?_⟩
      split at h
      next => cases h
      next hnode =>
        cases h
        rw [hnode]
        exact ⟨nofun, rfl⟩
      next hnode =>
        split at h
        next =>
          cases h
          rw [hnode]
          exact ⟨nofun, rfl⟩
        next => cases h
        next => cases h

/-- Writing changes what stands at one place and takes no directory away. -/
theorem write_eq_ok {bytes : List UInt8} (h : before.write path bytes = .ok after) :
    ∃ place, before.place path = .ok place ∧ SameDirectories before after ∧
      ∀ other, after.node? other =
        if other = place then some (.file bytes) else before.node? other := by
  obtain ⟨place, hplace, hfile, rfl⟩ := write_eq_put h
  have hne : place ≠ [] := by
    rintro rfl
    exact hfile rfl
  refine ⟨place, hplace, ⟨current_put .., fun other hother => ?_⟩, node?_put hne _⟩
  rw [node?_put hne]
  split
  next heq => exact absurd (heq ▸ hother) hfile
  next => exact hother

theorem follow_concat {start : Place} {front : List Text} {name : Text} (hname : name ≠ ['.', '.'])
    (h : tree.follow start (front ++ [name]) = .ok place) :
    ∃ directory, place = directory ++ [name] := by
  induction front generalizing start with
  | nil =>
      rw [List.nil_append, follow] at h
      · cases h
        exact ⟨start, rfl⟩
      · exact hname
  | cons part rest ih =>
      by_cases hup : part = ['.', '.']
      · rw [hup, List.cons_append, follow] at h
        exact ih h
      · rw [List.cons_append, follow] at h
        · split at h
          next => exact ih h
          next => cases h
          next => cases h
        · exact hup
        · simp

/-- The last name of a path is that of the place, unless it leads up. -/
theorem exists_of_place_eq_ok {front : List Text} {name : Text} (hname : name ≠ ['.', '.'])
    (hparts : path.parts = front ++ [name]) (h : tree.place path = .ok place) :
    ∃ directory, place = directory ++ [name] := by
  unfold FileTree.place at h
  split at h
  next => cases h
  next =>
    rw [hparts] at h
    exact follow_concat hname h

end FileTree

end MapAlgebra
