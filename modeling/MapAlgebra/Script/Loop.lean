import MapAlgebra.Files.Glob
import MapAlgebra.Script.Line
import MapAlgebra.Script.Statement

/-!
# Loops

The lines between the head of a loop and its `NEXT` are repeated for every value of the loop
variable, whose value takes the place of its name between percent signs. Loops nest. Unrolled lines
keep their numbers.
-/

namespace MapAlgebra.Script

/-- A whole number as text. -/
def numeral (n : Int) : Text :=
  (toString n).toList

/-- The text behind the name of a loop variable between percent signs, in any letter case. -/
def behindVariable? (name text : Text) : Option Text :=
  Text.dropCaseless? ('%' :: name ++ ['%']) text

/-- A text with a value for a loop variable. -/
def substitute (name : Text) (value : Int) (text : Text) : Text :=
  match text with
  | [] => []
  | c :: tail =>
      match _h : behindVariable? name (c :: tail) with
      | some rest => numeral value ++ substitute name value rest
      | none => c :: substitute name value tail
termination_by text.length
decreasing_by
  · have hlength := Text.length_le_of_dropCaseless? _h
    simp only [List.cons_append, List.length_cons, List.length_append, List.length_nil]
      at hlength ⊢
    omega
  · simp

def Line.substitute (name : Text) (value : Int) (line : Line) : Line :=
  { line with text := Script.substitute name value line.text }

/-- The fault of a line, with its number and text. -/
def Line.fault (line : Line) (cause : Fault) : Fault :=
  .line line.number (Text.trim line.text) cause

/-- The last value of a loop variable; patterns are looked up below a base path. -/
def LoopEnd.resolve (files : FileTree) (base : Path) : LoopEnd → Int
  | .value n => n
  | .files pattern => Glob.countFiles files base pattern

/-- The values of a loop variable. -/
def LoopHead.values (files : FileTree) (base : Path) (head : LoopHead) : List Int :=
  let count := head.last.resolve files base + 1 - head.first
  (List.range count.toNat).map fun (i : Nat) => head.first + i

/-- The head of a loop on a line. A fault of the wording is reported with the line. -/
def loopHead? (line : Line) : Except Fault (Option LoopHead) :=
  match LoopHead.ofText line.text with
  | .error (.script fault) => .error (line.fault (.script fault))
  | result => result

/-- The lines before the end of a loop and those behind it. Inside `depth` more loops, which are
closed first. -/
def loopBody (start : Line) (head : LoopHead) (depth : Nat) :
    List Line → Except Fault (List Line × List Line)
  | [] => .error (start.fault (.script (.forWithoutNext head.name)))
  | line :: rest =>
      let within (depth : Nat) : Except Fault (List Line × List Line) :=
        (loopBody start head depth rest).map fun (body, behind) => (line :: body, behind)
      if isLoopHead line.text then within (depth + 1)
      else
        match loopEnd? line.text, depth with
        | none, _ => within depth
        | some _, depth + 1 => within depth
        | some name, 0 =>
            match name with
            | some name =>
                if Text.upper name == Text.upper head.name then .ok ([], rest)
                else .error (line.fault (.script (.nextMismatch name head.name)))
            | none => .ok ([], rest)

theorem length_loopBody {start : Line} {head : LoopHead} {depth : Nat} {lines : List Line}
    {found : List Line × List Line} (h : loopBody start head depth lines = .ok found) :
    found.1.length + found.2.length < lines.length := by
  induction lines generalizing depth found with
  | nil => simp [loopBody] at h
  | cons line rest ih =>
      have hwithin {depth : Nat}
          (h : (loopBody start head depth rest).map
            (fun (body, behind) => (line :: body, behind)) = .ok found) :
          found.1.length + found.2.length < (line :: rest).length := by
        cases hbody : loopBody start head depth rest with
        | error fault => simp [hbody, Except.map] at h
        | ok inner =>
            simp only [hbody, Except.map, Except.ok.injEq] at h
            have := ih hbody
            rw [← h]
            simp only [List.length_cons]
            omega
      unfold loopBody at h
      split at h
      · exact hwithin h
      · split at h
        · exact hwithin h
        · exact hwithin h
        · split at h
          · split at h
            · rw [← Except.ok.inj h]
              simp
            · simp at h
          · rw [← Except.ok.inj h]
            simp

/-- The lines with all loops unrolled. Patterns are looked up below a base path. -/
def unroll (files : FileTree) (base : Path) (lines : List Line) : Except Fault (List Line) :=
  match lines with
  | [] => .ok []
  | line :: rest => do
      match ← loopHead? line with
      | none =>
          if (loopEnd? line.text).isSome then
            throw (line.fault (.script .nextWithoutFor))
          return line :: (← unroll files base rest)
      | some head =>
          match _h : loopBody line head 0 rest with
          | .error fault => throw fault
          | .ok (body, behind) =>
              let repeated ← (head.values files base).mapM fun value =>
                unroll files base (body.map (Line.substitute head.name value))
              return repeated.flatten ++ (← unroll files base behind)
termination_by lines.length
decreasing_by
  · simp
  · have := length_loopBody _h
    simp only [List.length_map, List.length_cons] at this ⊢
    omega
  · have := length_loopBody _h
    simp only [List.length_cons] at this ⊢
    omega

end MapAlgebra.Script
