import MapAlgebra.Text.Basic

/-!
# Script lines

A line that ends in an underscore is continued by the next one. A joined line keeps the number of
its first physical line.
-/

namespace MapAlgebra.Script

/-- A line of a script with its number in the source. -/
structure Line where
  number : Nat
  text : Text
  deriving DecidableEq, Repr

/-- The text of a physical line that is continued by the next one, without its underscore. -/
def continued? (raw : Text) : Option Text :=
  let text := Text.trimRight raw
  if text.getLast? == some '_' then some text.dropLast else none

/-- Joins physical lines, the first of which has the given number, to the line that is open. -/
def joinLines (opened : Option Line) (number : Nat) : List Text → List Line
  | [] => opened.toList
  | raw :: rest =>
      let line := opened.getD ⟨number, []⟩
      match continued? raw with
      | some text => joinLines (some { line with text := line.text ++ text }) (number + 1) rest
      | none => { line with text := line.text ++ raw } :: joinLines none (number + 1) rest

/-- The lines of a script, continued ones joined. -/
def readLines (source : Text) : List Line :=
  joinLines none 1 (Text.lines source)

/-- The values of names in the surroundings of a run. -/
abbrev Environment := List (Text × Text)

/-- The name between percent signs that a text begins with, and the rest. -/
def leadingReference? : Text → Option (Text × Text)
  | '%' :: rest =>
      let (name, behind) := Text.span (fun c => c != '%' && !Text.isBlank c) rest
      match name, behind with
      | _ :: _, '%' :: behind => some (name, behind)
      | _, _ => none
  | _ => none

theorem length_leadingReference? {text : Text} {found : Text × Text}
    (h : leadingReference? text = some found) : found.2.length < text.length := by
  unfold leadingReference? at h
  split at h
  next rest =>
    simp only [Text.span] at h
    split at h
    next heq =>
      rw [← Option.some.inj h]
      have hle := Text.length_dropWhile_le (fun c => c != '%' && !Text.isBlank c) rest
      rw [heq] at hle
      simp only [List.length_cons] at hle ⊢
      omega
    next => simp at h
  next => simp at h

/-- A text with the values of the environment for names between percent signs. Names without a
value stay. -/
def Environment.expand (environment : Environment) (text : Text) : Text :=
  match text with
  | [] => []
  | c :: tail =>
      match _h : leadingReference? (c :: tail) with
      | some (name, rest) =>
          let value := (environment.find? fun entry => entry.1 == name).map (·.2)
          value.getD ('%' :: name ++ ['%']) ++ environment.expand rest
      | none => c :: environment.expand tail
termination_by text.length
decreasing_by
  · exact length_leadingReference? _h
  · simp

/-- The names between percent signs in a text. -/
def references (text : Text) : List Text :=
  match text with
  | [] => []
  | c :: tail =>
      match _h : leadingReference? (c :: tail) with
      | some (name, rest) => name :: references rest
      | none => references tail
termination_by text.length
decreasing_by
  · exact length_leadingReference? _h
  · simp

end MapAlgebra.Script
