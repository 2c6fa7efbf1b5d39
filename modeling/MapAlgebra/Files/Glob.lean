import MapAlgebra.Files.Tree

/-!
# File name patterns

In a pattern `*` stands for any run of characters, `?` for one character and `[…]` for one of a
set; a set beginning with `!` holds all other characters. Names that begin with a dot are found
only by patterns that do.
-/

namespace MapAlgebra.Glob

/-- One item of a pattern. -/
inductive Item
  | literal (c : Char)
  | any
  | run
  | set (negated : Bool) (ranges : List (Char × Char))
  deriving DecidableEq, Repr

/-- The ranges of a set. A dash at either end stands for itself. -/
def ranges : Text → List (Char × Char)
  | a :: '-' :: b :: rest => if b < a then ranges rest else (a, b) :: ranges rest
  | a :: rest => (a, a) :: ranges rest
  | [] => []

/-- The text before the first closing bracket and the text behind it. -/
def closing? : Text → Option (Text × Text)
  | [] => none
  | ']' :: rest => some ([], rest)
  | c :: rest => (closing? rest).map fun (body, behind) => (c :: body, behind)

/-- The characters of a set and the text behind its closing bracket. A bracket right at the start
belongs to the set. -/
def setBody? : Text → Option (Text × Text)
  | '!' :: ']' :: rest =>
      (closing? rest).map fun (body, behind) => ('!' :: ']' :: body, behind)
  | ']' :: rest => (closing? rest).map fun (body, behind) => (']' :: body, behind)
  | text => closing? text

/-- The set that a bracket opens. -/
def setOf (body : Text) : Item :=
  match body with
  | '!' :: rest => .set true (ranges rest)
  | _ => .set false (ranges body)

theorem length_closing? {text : Text} {part : Text × Text} (h : closing? text = some part) :
    part.2.length < text.length := by
  induction text generalizing part with
  | nil => simp [closing?] at h
  | cons c rest ih =>
      unfold closing? at h
      split at h
      next => simp_all
      next heq =>
        obtain ⟨rfl, rfl⟩ := heq
        simp at h
        simp [← h]
      next heq =>
        obtain ⟨rfl, rfl⟩ := heq
        obtain ⟨inner, hinner, rfl⟩ := Option.map_eq_some_iff.1 h
        have := ih hinner
        simp only [List.length_cons]
        omega

theorem length_setBody? {text : Text} {part : Text × Text} (h : setBody? text = some part) :
    part.2.length < text.length := by
  unfold setBody? at h
  split at h
  next =>
    obtain ⟨inner, hinner, rfl⟩ := Option.map_eq_some_iff.1 h
    have := length_closing? hinner
    simp only [List.length_cons]
    omega
  next =>
    obtain ⟨inner, hinner, rfl⟩ := Option.map_eq_some_iff.1 h
    have := length_closing? hinner
    simp only [List.length_cons]
    omega
  next => exact length_closing? h

/-- The items of a pattern. A bracket that nothing closes stands for itself. -/
def items (pattern : Text) : List Item :=
  match pattern with
  | [] => []
  | '*' :: rest => .run :: items rest
  | '?' :: rest => .any :: items rest
  | '[' :: rest =>
      match _h : setBody? rest with
      | some (body, behind) => setOf body :: items behind
      | none => .literal '[' :: items rest
  | c :: rest => .literal c :: items rest
termination_by pattern.length
decreasing_by
  all_goals first
    | (have hlength := length_setBody? _h; simp at hlength ⊢; omega)
    | simp

def Item.admits : Item → Char → Bool
  | literal d, c => d == c
  | any, _ => true
  | run, _ => true
  | set negated ranges, c => (ranges.any fun range => range.1 ≤ c && c ≤ range.2) != negated

/-- Whether the items describe the whole name. -/
def matchesItems : List Item → Text → Bool
  | [], name => name.isEmpty
  | .run :: rest, [] => matchesItems rest []
  | .run :: rest, c :: name => matchesItems rest (c :: name) || matchesItems (.run :: rest) name
  | _ :: _, [] => false
  | item :: rest, c :: name => item.admits c && matchesItems rest name
termination_by items name => items.length + name.length

/-- Whether a pattern finds a name. -/
def finds (pattern name : Text) : Bool :=
  (pattern.head? == some '.' || name.head? != some '.') && matchesItems (items pattern) name

def isPattern (piece : Text) : Bool :=
  piece.any fun c => c == '*' || c == '?' || c == '['

/-- One piece of a pattern applied to the paths found so far. -/
def step (tree : FileTree) (paths : List Path) (piece : Text) : List Path :=
  if piece.isEmpty || piece == ['.'] then paths.filter tree.isDirectory
  else if isPattern piece then
    paths.flatMap fun path =>
      match tree.place path with
      | .ok place =>
          ((tree.names place).filter (finds piece)).map fun name => path.join ⟨[], [name]⟩
      | .error _ => []
  else (paths.map fun path => path.join ⟨[], [piece]⟩).filter tree.pathExists

/-- The paths that a pattern finds. -/
def find (tree : FileTree) (pattern : Text) : List Path :=
  let start : Path := if (Path.ofText pattern).isAbsolute then ⟨['/'], []⟩ else .here
  (Path.pieces pattern).foldl (step tree) [start]

/-- The number of files a pattern finds below a base path. A directory counts the files in it. -/
def countFiles (tree : FileTree) (base : Path) (pattern : Text) : Nat :=
  let target := if (Path.ofText pattern).isAbsolute then pattern else base.toText ++ '/' :: pattern
  let directory := Path.ofText target
  if tree.isDirectory directory then
    match tree.place directory with
    | .ok place =>
        ((tree.names place).filter fun name => tree.isFile (directory.join ⟨[], [name]⟩)).length
    | .error _ => 0
  else ((find tree target).filter tree.isFile).length

end MapAlgebra.Glob
