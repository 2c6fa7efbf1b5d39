import MapAlgebra.Variables

/-!
# Prepared expressions

Before an expression is read, its blanks are removed, its parentheses are counted, and the names of
variables give way to placeholders `#0#`, `#1#`, and so on. A name counts only where it is a whole
token, and longer names come first, so that no name is found inside another one.
-/

namespace MapAlgebra

namespace Expression

/-- The token that stands for the name with a number. -/
def placeholder (index : Nat) : Text :=
  '#' :: Nat.toDigits 10 index ++ ['#']

/-- Characters of names, numbers, file paths and placeholders. A name next to one of them is part
of a longer token. -/
def isTokenChar (c : Char) : Bool :=
  Text.isWord c || c == '.' || c == '#' || c == '%' || c == '\\' || c == ':'

/-- The text behind a name, when the text begins with it and it is a whole token there. The
character in front of the text is `before`. -/
def behindName? (name : Text) (before : Option Char) (text : Text) : Option Text :=
  if before.any isTokenChar then none
  else
    match Text.dropCaseless? name text with
    | none => none
    | some rest =>
        if rest.head?.any fun c => isTokenChar c || c == '(' then none else some rest

/-- A part of a text in which a name has been looked for. -/
inductive Piece
  | char (c : Char)
  | name (spelled : Text)
  deriving DecidableEq, Repr

namespace Piece

/-- The part as it was. -/
def source : Piece → Text
  | char c => [c]
  | name spelled => spelled

/-- The part with a token in place of the name. -/
def replaced (token : Text) : Piece → Text
  | char c => [c]
  | name _ => token

def isName : Piece → Bool
  | char _ => false
  | name _ => true

end Piece

theorem length_behindName? {name text rest : Text} {before : Option Char}
    (h : behindName? name before text = some rest) : name.length + rest.length = text.length := by
  unfold behindName? at h
  split at h
  next => simp at h
  next =>
    split at h
    next => simp at h
    next found hfound =>
      split at h
      next => simp at h
      next =>
        rw [← Option.some.inj h]
        exact Text.length_le_of_dropCaseless? hfound

/-- The text cut at the places of a name, which do not overlap and are found from the left. The
character in front of the text is `before`. -/
def cut (name : Text) (before : Option Char) (text : Text) : List Piece :=
  match text with
  | [] => if (behindName? name before []).isSome then [.name []] else []
  | c :: tail =>
      match _h : behindName? name before (c :: tail) with
      | none => .char c :: cut name (some c) tail
      | some rest =>
          if name.isEmpty then .name [] :: .char c :: cut name (some c) tail
          else .name ((c :: tail).take name.length) :: cut name (c :: tail)[name.length - 1]? rest
termination_by text.length
decreasing_by
  · simp
  · simp
  · rename_i hname
    have hlength := length_behindName? _h
    have : name.length ≠ 0 := by simpa using hname
    omega

/-- An expression ready to be read. -/
structure Prepared where
  source : Text
  text : Text
  /-- The placeholders in the text with the names they stand for. -/
  names : List (Text × Text) := []
  deriving DecidableEq, Repr

namespace Prepared

/-- The name a token stands for. -/
def name? (prepared : Prepared) (token : Text) : Option Text :=
  (prepared.names.find? fun entry => entry.1 == token).map (·.2)

/-- The placeholder that a text begins with, whatever its number, and the rest. -/
def leadingPlaceholder? : Text → Option (Text × Text)
  | '#' :: rest =>
      let (digits, behind) := Text.span Text.isDigit rest
      match digits, behind with
      | _ :: _, '#' :: behind => some ('#' :: digits ++ ['#'], behind)
      | _, _ => none
  | _ => none

theorem length_leadingPlaceholder? {text : Text} {found : Text × Text}
    (h : leadingPlaceholder? text = some found) : found.2.length < text.length := by
  unfold leadingPlaceholder? at h
  split at h
  next rest =>
    simp only [Text.span] at h
    split at h
    next heq =>
      rw [← Option.some.inj h]
      have hle := Text.length_dropWhile_le Text.isDigit rest
      rw [heq] at hle
      simp only [List.length_cons] at hle ⊢
      omega
    next => simp at h
  next => simp at h

/-- A text with the names of the variables in place of their placeholders. -/
def expand (prepared : Prepared) (text : Text) : Text :=
  match text with
  | [] => []
  | c :: tail =>
      match _h : leadingPlaceholder? (c :: tail) with
      | some (token, rest) => (prepared.name? token).getD token ++ prepared.expand rest
      | none => c :: prepared.expand tail
termination_by text.length
decreasing_by
  · exact length_leadingPlaceholder? _h
  · simp

/-- The expression with the token in place of a name, if it occurs. -/
def substitute (prepared : Prepared) (token name : Text) : Prepared :=
  let pieces := cut name none prepared.text
  if pieces.any Piece.isName then
    { prepared with
      text := pieces.flatMap (Piece.replaced token)
      names := prepared.names ++ [(token, name)] }
  else prepared

/-- The expression with placeholders for names, the first one numbered zero. -/
def substituteAll (prepared : Prepared) (names : List Text) : Prepared :=
  names.zipIdx.foldl
    (fun prepared entry => prepared.substitute (placeholder entry.2) entry.1) prepared

end Prepared

/-- The depth of parentheses behind a text that begins at a depth. The position of its first
character counts from one, and no closing parenthesis may come without an opening one. -/
def depthBehind (whole : Text) (depth position : Nat) : Text → Except ExpressionFault Nat
  | [] => .ok depth
  | '(' :: rest => depthBehind whole (depth + 1) (position + 1) rest
  | ')' :: rest =>
      match depth with
      | 0 => .error (.unexpectedClosing position whole)
      | depth + 1 => depthBehind whole depth (position + 1) rest
  | _ :: rest => depthBehind whole depth (position + 1) rest

/-- Refuses a text whose parentheses are not paired. -/
def checkParentheses (text : Text) : Except ExpressionFault Unit :=
  match depthBehind text 0 1 text with
  | .error fault => .error fault
  | .ok 0 => .ok ()
  | .ok (count + 1) => .error (.unclosed (count + 1) text)

/-- The expression with placeholders for the given names. -/
def prepare (source : Text) (names : List Text) : Except ExpressionFault Prepared := do
  let text := Text.squeeze source
  if text.isEmpty then
    throw .empty
  checkParentheses text
  return Prepared.substituteAll { source, text } names

end Expression

end MapAlgebra
