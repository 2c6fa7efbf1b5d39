import MapAlgebra.Idf.File
import MapAlgebra.Proofs.Trails

/-!
# Two trees side by side

One tree has more than the other below a directory, and the way to that directory may be there
earlier. A path that does not lead below it, nor over places on the way that are missing, finds the
same in both, and what is written to both keeps them so.
-/

namespace MapAlgebra

namespace FileTree

/-- What stands at a place and what stands there in a tree that has more: directories on the way to
a directory, and files below it. -/
inductive Gains (passed : List Place) (below place : Place) : Option Node → Option Node → Prop
  | same (node : Option Node) : Gains passed below place node node
  | made (h : place ∈ passed) : Gains passed below place none (some .directory)
  | written {node : Option Node} {bytes : List UInt8} (h : below <+: place)
      (hnode : node ≠ some .directory) : Gains passed below place node (some (.file bytes))

/-- A tree beside one that has more on the way to a directory and below it. -/
structure Beside (aside : Path) (plain traced : FileTree) : Prop where
  isTree : plain.IsTree
  isTree' : traced.IsTree
  current : traced.current = plain.current
  node : ∀ place, Gains (plain.trail aside) (plain.target aside) place (plain.node? place)
    (traced.node? place)

/-- A path that leads to a place outside a directory, and over no place on the way to the directory
that is missing. -/
structure Avoids (aside : Path) (tree : FileTree) (path : Path) : Prop where
  outside : ¬ tree.target aside <+: tree.target path
  passable : ∀ place ∈ tree.trail path, place ∈ tree.trail aside → tree.node? place ≠ none

namespace Beside

variable {aside path : Path} {plain traced plain' traced' : FileTree} {bytes : List UInt8}

theorem refl {tree : FileTree} (htree : tree.IsTree) (aside : Path) :
    Beside aside tree tree :=
  ⟨htree, htree, rfl, fun _ => .same _⟩

theorem node?_eq_directory (h : Beside aside plain traced) {place : Place}
    (hplace : plain.node? place = some .directory) : traced.node? place = some .directory := by
  have hnode := h.node place
  rw [hplace] at hnode
  generalize traced.node? place = node at hnode ⊢
  cases hnode with
  | same => rfl
  | written _ hne => exact absurd rfl hne

/-- Outside the directory both trees have the same files. -/
theorem node?_eq_file_iff (h : Beside aside plain traced) {place : Place}
    (houtside : ¬ plain.target aside <+: place) :
    traced.node? place = some (.file bytes) ↔ plain.node? place = some (.file bytes) := by
  have hgains := h.node place
  generalize plain.node? place = node, traced.node? place = node' at hgains ⊢
  cases hgains with
  | same => exact Iff.rfl
  | made => exact iff_of_false nofun nofun
  | written hbelow _ => exact absurd hbelow houtside

/-- What is there outside the directory stands in both trees. -/
theorem lookup?_eq_some (h : Beside aside plain traced) {node : Node}
    (houtside : ¬ plain.target aside <+: plain.target path)
    (hfound : plain.lookup? path = some node) : traced.lookup? path = some node := by
  obtain ⟨hnul, hnode, hpassed⟩ := (lookup?_eq_some_iff h.isTree).mp hfound
  rw [lookup?_eq_some_iff h.isTree', target_congr h.current, trail_congr h.current]
  refine ⟨hnul, ?_, fun place hplace => h.node?_eq_directory (hpassed place hplace)⟩
  have hgains := h.node (plain.target path)
  rw [hnode] at hgains
  generalize traced.node? (plain.target path) = node' at hgains ⊢
  cases hgains with
  | same => rfl
  | written hbelow _ => exact absurd hbelow houtside

theorem lookup?_eq (h : Beside aside plain traced) (havoids : Avoids aside plain path) :
    traced.lookup? path = plain.lookup? path := by
  cases hfound : plain.lookup? path with
  | some node => exact h.lookup?_eq_some havoids.outside hfound
  | none =>
      by_contra hne
      obtain ⟨node, hnode⟩ := Option.ne_none_iff_exists'.mp hne
      obtain ⟨hnul, hnode, hpassed⟩ := (lookup?_eq_some_iff h.isTree').mp hnode
      rw [target_congr h.current] at hnode
      rw [trail_congr h.current] at hpassed
      have hback (place : Place) (hplace : place ∈ plain.trail path) {node : Node}
          (hnode : traced.node? place = some node) (hkind : node = .directory ∨
            ¬ plain.target aside <+: place) : plain.node? place = some node := by
        have hgains := h.node place
        rw [hnode] at hgains
        cases hgains' : plain.node? place with
        | none =>
            rw [hgains'] at hgains
            cases hgains with
            | made hover => exact absurd hgains' (havoids.passable place hplace hover)
            | written hbelow _ => exact (hkind.resolve_left nofun hbelow).elim
        | some old =>
            rw [hgains'] at hgains
            cases hgains with
            | same => rfl
            | written hbelow _ => exact (hkind.resolve_left nofun hbelow).elim
      have hsome : plain.lookup? path = some node :=
        (lookup?_eq_some_iff h.isTree).mpr
          ⟨hnul, hback _ (mem_trail_target plain path) hnode (.inr havoids.outside),
            fun place hplace => hback place ((mem_trail_iff plain path).mpr (.inl hplace))
              (hpassed place hplace) (.inl rfl)⟩
      cases hfound.symm.trans hsome

theorem pathExists_eq (h : Beside aside plain traced) (havoids : Avoids aside plain path) :
    traced.pathExists path = plain.pathExists path := by
  unfold pathExists
  rw [h.lookup?_eq havoids]

theorem read_congr {node : Node} (h : plain.lookup? path = some node)
    (h' : traced.lookup? path = some node) : traced.read path = plain.read path := by
  unfold lookup? at h h'
  unfold read
  cases hplace : plain.place path with
  | error fault =>
      rw [hplace] at h
      cases h
  | ok place =>
      cases hplace' : traced.place path with
      | error fault =>
          rw [hplace'] at h'
          cases h'
      | ok place' =>
          rw [hplace] at h
          rw [hplace'] at h'
          dsimp only [bind, Except.bind] at h h' ⊢
          rw [h, h']

/-- A file outside the directory is there for both trees and reads the same. -/
theorem read_eq (h : Beside aside plain traced)
    (houtside : ¬ plain.target aside <+: plain.target path)
    (hexists : plain.pathExists path = true) :
    traced.pathExists path = true ∧ traced.read path = plain.read path := by
  obtain ⟨node, hnode⟩ := Option.isSome_iff_exists.mp hexists
  have hnode' := h.lookup?_eq_some houtside hnode
  exact ⟨Option.isSome_iff_exists.mpr ⟨node, hnode'⟩, read_congr hnode hnode'⟩

/-- Directories that are made in both trees leave them beside each other. -/
theorem makes {places : List Place} (h : Beside aside plain traced)
    (hplain : Makes places plain plain') (htraced : Makes places traced traced') :
    Beside aside plain' traced' where
  isTree := hplain.tree
  isTree' := htraced.tree
  current := htraced.current.trans (h.current.trans hplain.current.symm)
  node place := by
    rw [trail_congr hplain.current, target_congr hplain.current]
    by_cases hplace : place ∈ places
    · rw [hplain.made place hplace, htraced.made place hplace]
      exact .same _
    · rw [hplain.same place hplace, htraced.same place hplace]
      exact h.node place

/-- The way to the directory may be made in the tree that has more. -/
theorem makes_traced (h : Beside aside plain traced)
    (htraced : Makes (plain.trail aside) traced traced') : Beside aside plain traced' where
  isTree := h.isTree
  isTree' := htraced.tree
  current := htraced.current.trans h.current
  node place := by
    by_cases hplace : place ∈ plain.trail aside
    · have hmade := htraced.made place hplace
      have hgains := h.node place
      rw [hmade]
      cases htraced' : traced.node? place with
      | none =>
          rw [htraced'] at hgains
          generalize plain.node? place = node at hgains ⊢
          cases hgains
          exact .made hplace
      | some node =>
          cases (htraced.node place node htraced').symm.trans hmade
          rw [htraced'] at hgains
          exact hgains
    · rw [htraced.same place hplace]
      exact h.node place

/-- A file that is written to both trees leaves them beside each other. -/
theorem write (h : Beside aside plain traced) (hplain : plain.write path bytes = .ok plain')
    (htraced : traced.write path bytes = .ok traced') : Beside aside plain' traced' := by
  obtain ⟨htree, hne, -, rfl⟩ := write_eq_put_target h.isTree hplain
  obtain ⟨htree', -, -, rfl⟩ := write_eq_put_target h.isTree' htraced
  refine ⟨htree, htree', ?_, fun place => ?_⟩
  · rw [current_put, current_put, h.current]
  · rw [trail_congr (current_put ..), target_congr (current_put ..), target_congr h.current,
      node?_put hne, node?_put hne]
    split
    next => exact .same _
    next => exact h.node place

/-- A file may be written below the directory in the tree that has more. -/
theorem write_traced (h : Beside aside plain traced)
    (hbelow : plain.target aside <+: plain.target path)
    (htraced : traced.write path bytes = .ok traced') : Beside aside plain traced' := by
  obtain ⟨htree', hne, hfile, rfl⟩ := write_eq_put_target h.isTree' htraced
  refine ⟨h.isTree, htree', (current_put ..).trans h.current, fun place => ?_⟩
  rw [target_congr h.current] at hne hfile ⊢
  rw [node?_put hne]
  split
  next heq =>
    subst heq
    exact .written hbelow fun hdirectory => hfile (h.node?_eq_directory hdirectory)
  next => exact h.node place

end Beside

end FileTree

section Grids

variable {K V S : Type} [Coordinate K] [Number V] [Cell S V]
variable {grid : Grid K V S} {path : Path} {metadata : Option Metadata}
  {before after : FileTree}

/-- What is written beside a grid. -/
inductive WritesBeside (path : Path) : Option Metadata → FileTree → FileTree → Prop
  | none (files : FileTree) : WritesBeside path none files files
  | some {metadata : Metadata} {before after : FileTree}
      (h : before.write (Metadata.pathFor path) (Bytes.ofText metadata.toText) = .ok after) :
      WritesBeside path (some metadata) before after

/-- Writing a grid makes directories, and writes the grid and then its metadata. -/
theorem Grid.exists_of_write_eq_ok (h : grid.write path metadata before = (.ok (), after)) :
    ∃ made written cells, before.ensureDirectories path.parent = (.ok (), made) ∧
      grid.values = .ok cells ∧ made.write path (Idf.encode grid cells).1 = .ok written ∧
      WritesBeside path metadata written after := by
  unfold Grid.write at h
  generalize before.ensureDirectories path.parent = made at h ⊢
  obtain ⟨_ | _, made⟩ := made
  · cases h
  dsimp only at h
  cases hcells : grid.values with
  | error fault =>
      rw [hcells] at h
      cases h
  | ok cells =>
      rw [hcells] at h
      dsimp only at h
      generalize hencode : Idf.encode grid cells = encoded at h
      cases hwrite : made.write path encoded.1 with
      | error fault =>
          rw [hwrite] at h
          cases h
      | ok written =>
          refine ⟨made, written, cells, rfl, rfl, by rw [hencode]; exact hwrite, ?_⟩
          rw [hwrite] at h
          obtain ⟨bytes, _ | done⟩ := encoded
          · cases h
          · cases metadata with
            | none =>
                cases h
                exact .none _
            | some metadata =>
                dsimp only at h
                split at h
                next hmetadata =>
                  cases h
                  exact .some hmetadata
                next => cases h

/-- A tree in which all paths exist that existed before. -/
structure FileTree.Keeps (before after : FileTree) : Prop
    extends SameDirectories before after where
  node : ∀ place, before.node? place ≠ none → after.node? place ≠ none

namespace FileTree.Keeps

theorem trans {between : FileTree} (h : Keeps before between) (h' : Keeps between after) :
    Keeps before after :=
  ⟨h.toSameDirectories.trans h'.toSameDirectories,
    fun place hplace => h'.node place (h.node place hplace)⟩

theorem of_extends (h : Extends before after) : Keeps before after := by
  refine ⟨h.sameDirectories, fun place hplace => ?_⟩
  obtain ⟨node, hnode⟩ := Option.ne_none_iff_exists'.mp hplace
  rw [h.node place node hnode]
  exact Option.some_ne_none node

theorem of_write {bytes : List UInt8} (h : before.write path bytes = .ok after) :
    Keeps before after := by
  obtain ⟨place, -, hdirectories, hnode⟩ := write_eq_ok h
  refine ⟨hdirectories, fun other hother => ?_⟩
  rw [hnode]
  split
  next => exact Option.some_ne_none _
  next => exact hother

theorem pathExists (h : Keeps before after) (hexists : before.pathExists path = true) :
    after.pathExists path = true := by
  unfold FileTree.pathExists lookup? at hexists ⊢
  cases hplace : before.place path with
  | error fault =>
      rw [hplace] at hexists
      cases hexists
  | ok place =>
      rw [hplace] at hexists
      rw [h.place_eq_ok hplace]
      exact Option.isSome_iff_ne_none.mpr (h.node place (Option.isSome_iff_ne_none.mp hexists))

end FileTree.Keeps

theorem Grid.keeps_of_write_eq_ok (h : grid.write path metadata before = (.ok (), after)) :
    before.Keeps after := by
  obtain ⟨made, written, cells, hmade, -, hwritten, hbeside⟩ := Grid.exists_of_write_eq_ok h
  have hmaking := FileTree.ensureDirectories_extends before path.parent
  rw [hmade] at hmaking
  have hwrote := (FileTree.Keeps.of_extends hmaking).trans (.of_write hwritten)
  cases hbeside with
  | none => exact hwrote
  | some hmetadata => exact hwrote.trans (.of_write hmetadata)

namespace FileTree.Beside

variable {aside : Path} {plain traced plain' traced' : FileTree}

/-- A grid that is written to both trees leaves them beside each other. -/
theorem write_grid (h : Beside aside plain traced)
    (hplain : grid.write path metadata plain = (.ok (), plain'))
    (htraced : grid.write path metadata traced = (.ok (), traced')) :
    Beside aside plain' traced' := by
  obtain ⟨made, written, cells, hmade, hcells, hwritten, hbeside⟩ :=
    Grid.exists_of_write_eq_ok hplain
  obtain ⟨made', written', cells', hmade', hcells', hwritten', hbeside'⟩ :=
    Grid.exists_of_write_eq_ok htraced
  cases hcells.symm.trans hcells'
  have hmakes' := ensureDirectories_eq_ok h.isTree' hmade'
  rw [trail_congr h.current] at hmakes'
  have hwrote := (h.makes (ensureDirectories_eq_ok h.isTree hmade) hmakes').write hwritten hwritten'
  cases hbeside with
  | none =>
      cases hbeside'
      exact hwrote
  | some hmetadata =>
      cases hbeside' with
      | some hmetadata' => exact hwrote.write hmetadata hmetadata'

/-- A grid may be written into the directory in the tree that has more. -/
theorem write_grid_traced (h : Beside aside plain traced) {name : Text}
    (hname : name ≠ ['.', '.']) (hpath : path = aside.join ⟨[], [name]⟩)
    (htraced : grid.write path metadata traced = (.ok (), traced')) :
    Beside aside plain traced' := by
  obtain ⟨made, written, cells, hmade, -, hwritten, hbeside⟩ := Grid.exists_of_write_eq_ok htraced
  have hparent : path.parent = aside := by
    rw [hpath]
    show Path.mk aside.root (aside.parts ++ [name]).dropLast = aside
    rw [List.dropLast_concat]
  -- the grid and its metadata have a last name that leads into the directory
  have hbelow {other : Path} {last : Text} (hlast : last ≠ ['.', '.'])
      (hother : other = ⟨aside.root, aside.parts ++ [last]⟩) :
      plain.target aside <+: plain.target other := by
    subst hother
    have habsolute : Path.isAbsolute ⟨aside.root, aside.parts ++ [last]⟩ = aside.isAbsolute := rfl
    rw [target_eq, target_eq, habsolute]
    dsimp only
    rw [List.foldl_concat, Place.enter_of_ne hlast]
    exact List.prefix_append _ _
  have hmakes := ensureDirectories_eq_ok h.isTree' hmade
  rw [hparent, trail_congr h.current] at hmakes
  have hwrote := (h.makes_traced hmakes).write_traced (hbelow hname hpath) hwritten
  cases hbeside with
  | none => exact hwrote
  | some hmetadata =>
      have hlast : path.stem ++ ['.', 'M', 'E', 'T'] ≠ ['.', '.'] := by
        intro heq
        have hlength := congrArg List.length heq
        rw [List.length_append] at hlength
        simp only [List.length_cons, List.length_nil] at hlength
        omega
      refine hwrote.write_traced (hbelow hlast ?_) hmetadata
      unfold Metadata.pathFor Path.withSuffix
      have hparts : path.parts.dropLast = aside.parts := congrArg Path.parts hparent
      have hroot : path.root = aside.root := by rw [← hparent, Path.parent]
      rw [hparts, hroot]

end FileTree.Beside

end Grids

end MapAlgebra
