import MapAlgebra.Proofs.Files

/-!
# Trails

By its names alone a path leads from place to place. In a tree whose places all stand in directories
it names the last of them when the others are directories, and making its directories leaves one at
each of them.
-/

namespace MapAlgebra

/-- The place that a name leads to. -/
def Place.enter (place : Place) (name : Text) : Place :=
  if name == ['.', '.'] then place.dropLast else place ++ [name]

theorem Place.enter_of_ne {name : Text} (h : name ≠ ['.', '.']) (place : Place) :
    place.enter name = place ++ [name] :=
  if_neg (by simpa using h)

/-- The places that names lead over, with the one that they start from. -/
def way : Place → List Text → List Place
  | start, [] => [start]
  | start, name :: rest => start :: way (Place.enter start name) rest

theorem way_ne_nil (start : Place) (names : List Text) : way start names ≠ [] := by
  cases names <;> exact List.cons_ne_nil _ _

theorem way_concat (start : Place) (names : List Text) (name : Text) :
    way start (names ++ [name]) =
      way start names ++ [Place.enter (names.foldl Place.enter start) name] := by
  induction names generalizing start with
  | nil => rfl
  | cons first rest ih => exact congrArg (start :: ·) (ih (Place.enter start first))

theorem mem_way_end (start : Place) (names : List Text) :
    names.foldl Place.enter start ∈ way start names := by
  induction names generalizing start with
  | nil => exact List.mem_singleton_self _
  | cons name rest ih => exact List.mem_cons_of_mem _ (ih _)

/-- The places before the last one, and the last one. -/
theorem dropLast_way_append (start : Place) (names : List Text) :
    (way start names).dropLast ++ [names.foldl Place.enter start] = way start names := by
  induction names generalizing start with
  | nil => rfl
  | cons name rest ih =>
      rw [way, List.dropLast_cons_of_ne_nil (way_ne_nil _ _), List.cons_append, List.foldl_cons, ih]

namespace FileTree

variable {tree before after made : FileTree} {path : Path} {place : Place} {bytes : List UInt8}

/-- A tree in which everything stands in a directory, and so does the current directory. -/
structure IsTree (tree : FileTree) : Prop where
  current : tree.node? tree.current = some .directory
  parent : ∀ place, tree.node? place ≠ none → tree.node? place.dropLast = some .directory

/-- The places that a path leads over. -/
def trail (tree : FileTree) (path : Path) : List Place :=
  way (if path.isAbsolute then [] else tree.current) path.parts

/-- The place that a path leads to by its names. -/
def target (tree : FileTree) (path : Path) : Place :=
  (tree.absolute path).parts

theorem target_eq (tree : FileTree) (path : Path) :
    tree.target path =
      path.parts.foldl Place.enter (if path.isAbsolute then [] else tree.current) := rfl

theorem trail_congr (h : after.current = before.current) (path : Path) :
    after.trail path = before.trail path := by
  unfold trail
  rw [h]

theorem target_congr (h : after.current = before.current) (path : Path) :
    after.target path = before.target path := by
  rw [target_eq, target_eq, h]

theorem mem_trail_target (tree : FileTree) (path : Path) : tree.target path ∈ tree.trail path :=
  mem_way_end _ _

theorem mem_trail_iff (tree : FileTree) (path : Path) :
    place ∈ tree.trail path ↔ place ∈ (tree.trail path).dropLast ∨ place = tree.target path := by
  have h : (tree.trail path).dropLast ++ [tree.target path] = tree.trail path :=
    dropLast_way_append _ _
  rw [← List.mem_singleton, ← List.mem_append, h]

theorem trail_concat {front : List Text} {name : Text} (tree : FileTree)
    (h : path.parts = front ++ [name]) :
    tree.trail path = tree.trail path.parent ++ [tree.target path] := by
  have hfront : path.parts.dropLast = front := by rw [h, List.dropLast_concat]
  have habsolute : path.parent.isAbsolute = path.isAbsolute := rfl
  unfold trail
  rw [target_eq, habsolute]
  unfold Path.parent
  dsimp only
  rw [hfront, h, way_concat, List.foldl_concat]

theorem IsTree.start (htree : tree.IsTree) (path : Path) :
    tree.node? (if path.isAbsolute then [] else tree.current) = some .directory := by
  split
  next => rfl
  next => exact htree.current

theorem follow_eq_ok_iff (htree : tree.IsTree) {start : Place} {names : List Text}
    (hstart : tree.node? start = some .directory) :
    tree.follow start names = .ok place ↔
      place = names.foldl Place.enter start ∧
        ∀ passed ∈ (way start names).dropLast, tree.node? passed = some .directory := by
  have hcons (name : Text) (rest : List Text) (start : Place) :
      (way start (name :: rest)).dropLast = start :: (way (Place.enter start name) rest).dropLast :=
    List.dropLast_cons_of_ne_nil (way_ne_nil _ _)
  have hpassed {name : Text} {rest : List Text} (start : Place)
      (hname : name = ['.', '.'] → False) (hrest : rest ≠ []) :
      start ++ [name] ∈ (way start (name :: rest)).dropLast := by
    obtain ⟨next, more, rfl⟩ := List.exists_cons_of_ne_nil hrest
    rw [hcons, Place.enter_of_ne hname, hcons]
    simp
  fun_induction tree.follow start names with
  | case1 start => simp [way, eq_comm]
  | case2 start rest ih =>
      have hup : tree.node? start.dropLast = some .directory :=
        htree.parent start (by simp [hstart])
      refine (ih hup).trans ?_
      rw [hcons, List.forall_mem_cons]
      simp [hstart, Place.enter]
  | case3 start name hname =>
      simp [way, Place.enter_of_ne hname, hstart, eq_comm]
  | case4 start name rest hne hname hnode ih =>
      refine (ih hnode).trans ?_
      rw [hcons, List.forall_mem_cons, List.foldl_cons, Place.enter_of_ne hne]
      simp [hstart]
  | case5 start name rest hne hname bytes hnode =>
      refine iff_of_false (fun h => by cases h) fun h => ?_
      cases hnode.symm.trans (h.2 _ (hpassed start hne (by simpa using hname)))
  | case6 start name rest hne hname hnode =>
      refine iff_of_false (fun h => by cases h) fun h => ?_
      cases hnode.symm.trans (h.2 _ (hpassed start hne (by simpa using hname)))

/-- A path names the place that it leads to when the places before it are directories. -/
theorem place_eq_ok_iff (htree : tree.IsTree) :
    tree.place path = .ok place ↔
      path.parts.any (·.contains '\x00') = false ∧ place = tree.target path ∧
        ∀ passed ∈ (tree.trail path).dropLast, tree.node? passed = some .directory := by
  unfold FileTree.place
  split
  next hnul => exact iff_of_false nofun fun h => absurd (hnul.symm.trans h.1) (by decide)
  next hnul =>
    rw [follow_eq_ok_iff htree (htree.start path)]
    exact ⟨fun h => ⟨by simpa using hnul, h⟩, fun h => h.2⟩

theorem lookup?_eq_some_iff (htree : tree.IsTree) {node : Node} :
    tree.lookup? path = some node ↔
      path.parts.any (·.contains '\x00') = false ∧ tree.node? (tree.target path) = some node ∧
        ∀ passed ∈ (tree.trail path).dropLast, tree.node? passed = some .directory := by
  unfold lookup?
  cases hplace : tree.place path with
  | error fault =>
      refine iff_of_false nofun fun h => ?_
      cases hplace.symm.trans ((place_eq_ok_iff htree).mpr ⟨h.1, rfl, h.2.2⟩)
  | ok place =>
      obtain ⟨hnul, rfl, hpassed⟩ := (place_eq_ok_iff htree).mp hplace
      exact ⟨fun h => ⟨hnul, h, hpassed⟩, fun h => h.2.1⟩

/-- Where a path names a directory, all of its places are directories. -/
theorem directory_of_isDirectory (htree : tree.IsTree) (h : tree.isDirectory path = true) :
    ∀ passed ∈ tree.trail path, tree.node? passed = some .directory := by
  obtain ⟨-, hnode, hpassed⟩ := (lookup?_eq_some_iff htree).mp (beq_iff_eq.mp h)
  intro passed hmem
  rcases (mem_trail_iff tree path).mp hmem with hbefore | rfl
  · exact hpassed passed hbefore
  · exact hnode

section Making

theorem IsTree.put (htree : tree.IsTree) {node : Node} (hplace : place ≠ [])
    (hparent : tree.node? place.dropLast = some .directory)
    (hkeeps : tree.node? place = some .directory → node = .directory) :
    (tree.put place node).IsTree := by
  have hdirectory (other : Place) (h : tree.node? other = some .directory) :
      (tree.put place node).node? other = some .directory := by
    rw [node?_put hplace]
    split
    next heq => rw [hkeeps (heq ▸ h)]
    next => exact h
  refine ⟨?_, fun other hother => hdirectory _ ?_⟩
  · rw [current_put]
    exact hdirectory _ htree.current
  · rw [node?_put hplace] at hother
    split at hother
    next heq => rwa [heq]
    next => exact htree.parent other hother

/-- A tree with directories at places, made where they were missing. -/
structure Makes (places : List Place) (before after : FileTree) : Prop
    extends Extends before after where
  tree : after.IsTree
  made : ∀ place ∈ places, after.node? place = some .directory
  same : ∀ place, place ∉ places → after.node? place = before.node? place

theorem makeDirectory_eq_ok (htree : before.IsTree) (h : before.makeDirectory path = .ok after) :
    Makes (before.trail path) before after := by
  have hextends := makeDirectory_extends h
  unfold makeDirectory at h
  cases hplace : before.place path with
  | error fault =>
      rw [hplace] at h
      cases h
  | ok place =>
      rw [hplace] at h
      dsimp only [bind, Except.bind] at h
      split at h
      next => cases h
      next hnone =>
        split at h
        next hparent =>
          cases h
          have hne : place ≠ [] := by
            rintro rfl
            cases hnone
          obtain ⟨-, rfl, hpassed⟩ := (place_eq_ok_iff htree).mp hplace
          refine ⟨hextends, htree.put hne hparent fun _ => rfl, fun other hother => ?_,
            fun other hother => ?_⟩
          · rcases (mem_trail_iff before path).mp hother with hbefore | rfl
            · exact hextends.node _ _ (hpassed other hbefore)
            · rw [node?_put hne, if_pos rfl]
          · rw [node?_put hne, if_neg]
            rintro rfl
            exact hother (mem_trail_target before path)
        next => cases h
        next => cases h

theorem ensureDirectory_eq_ok (htree : before.IsTree)
    (h : before.ensureDirectory path = .ok after) : Makes (before.trail path) before after := by
  unfold ensureDirectory at h
  split at h
  next tree hmade =>
    cases h
    exact makeDirectory_eq_ok htree hmade
  next =>
    split at h
    next hdirectory =>
      cases h
      exact ⟨.refl _, htree, directory_of_isDirectory htree hdirectory, fun _ _ => rfl⟩
    next => cases h

theorem trail_parent_subset (tree : FileTree) (path : Path) :
    tree.trail path.parent ⊆ tree.trail path := by
  rcases List.eq_nil_or_concat' path.parts with hnil | ⟨front, name, hparts⟩
  · have hparent : path.parent = path := by
      unfold Path.parent
      rw [hnil]
      cases path
      simp_all
    rw [hparent]
    exact List.Subset.refl _
  · rw [trail_concat tree hparts]
    exact List.subset_append_left _ _

/-- Making the directories of a path leaves a directory at each of its places. -/
theorem ensureDirectories_eq_ok (htree : before.IsTree)
    (h : before.ensureDirectories path = (.ok (), after)) :
    Makes (before.trail path) before after := by
  unfold ensureDirectories at h
  generalize path.parts.length = depth at h
  -- up to the first directory that can be made, and down again from it
  fun_induction ensureDirectories.go depth path before generalizing after with
  | case1 depth path before made hmade =>
      cases h
      exact makeDirectory_eq_ok htree hmade
  | case2 path before hmade => cases h
  | case3 path before hmade depth fault made hmade' ih => cases h
  | case4 path before hmade depth made hmade' above habove ih =>
      cases h
      have hparent := ih htree hmade'
      have hmakes := ensureDirectory_eq_ok hparent.tree habove
      rw [trail_congr hparent.current] at hmakes
      refine ⟨hparent.toExtends.trans hmakes.toExtends, hmakes.tree, hmakes.made,
        fun place hplace => ?_⟩
      rw [hmakes.same place hplace, hparent.same place fun hmem =>
        hplace (trail_parent_subset before path hmem)]
  | case5 path before hmade depth made hmade' fault hfault ih => cases h
  | case6 depth path before fault hfault hmade hdirectory =>
      cases h
      exact ⟨.refl _, htree, directory_of_isDirectory htree hdirectory, fun _ _ => rfl⟩
  | case7 => cases h

/-- Writing a file puts it where its path leads to, in a directory. -/
theorem write_eq_put_target (htree : before.IsTree) (h : before.write path bytes = .ok after) :
    after.IsTree ∧ before.target path ≠ [] ∧
      before.node? (before.target path) ≠ some .directory ∧
      after = before.put (before.target path) (.file bytes) := by
  obtain ⟨place, hplace, hfile, rfl⟩ := write_eq_put h
  obtain ⟨-, rfl, -⟩ := (place_eq_ok_iff htree).mp hplace
  have hne : before.target path ≠ [] := by
    intro hnil
    rw [hnil] at hfile
    exact hfile rfl
  refine ⟨htree.put hne ?_ fun hdirectory => absurd hdirectory hfile, hne, hfile, rfl⟩
  unfold write at h
  rw [hplace] at h
  dsimp only [bind, Except.bind] at h
  split at h
  next => cases h
  next bytes hnode => exact htree.parent _ (by rw [hnode]; exact Option.some_ne_none _)
  next hnone =>
    split at h
    next hparent => exact hparent
    next => cases h
    next => cases h

end Making

end FileTree

end MapAlgebra
