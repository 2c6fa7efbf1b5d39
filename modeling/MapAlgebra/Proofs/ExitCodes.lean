import MapAlgebra.CommandLine.Program
import MapAlgebra.Proofs.Stops

/-!
# Exit codes

The program reports the faults of a run and ends with a code. Two things end it without one: a log
file that cannot be opened, since that is done before faults are caught, and a grid file for the
extent that breaks off behind the flags of its header, whose fault is none of the reported ones.
-/

namespace MapAlgebra

variable {K V S : Type} [Coordinate K] [Number V]

namespace Idf

/-- The bytes are those of a header up to its flags, and they end before its last field. -/
def Header.BreaksOff (bytes : List UInt8) : Prop :=
  headLength ≤ bytes.length ∧ Bytes.toInt (word bytes 0) = marker ∧ bytes[40]? = some 0 ∧
    bytes.length < headLength + if bytes[41]? != some 0 then 16 else 8

instance (bytes : List UInt8) : Decidable (Header.BreaksOff bytes) :=
  inferInstanceAs (Decidable (_ ∧ _ ∧ _ ∧ _))

/-- The file at a path breaks off in its header. -/
def CutShort (files : FileTree) (path : Path) : Prop :=
  ∃ bytes, files.read path = .ok bytes ∧ Header.BreaksOff bytes

theorem Header.decode_eq_truncated_iff (path : Text) (bytes : List UInt8) :
    (decode path bytes : Except FormatFault (Header K V)) = .error .truncated ↔
      BreaksOff bytes := by
  unfold decode BreaksOff
  dsimp only
  split
  next hshort => exact iff_of_false nofun fun h => absurd h.1 (by omega)
  next hlong =>
    split
    next hdouble =>
      refine iff_of_false nofun fun h => ?_
      rw [beq_iff_eq.mp hdouble] at h
      exact absurd h.2.1 (by decide)
    next =>
      split
      next hmarker => exact iff_of_false nofun fun h => absurd h.2.1 (by simpa using hmarker)
      next hmarker =>
        split
        next hflag => exact iff_of_false nofun fun h => absurd h.2.2.1 (by simpa using hflag)
        next hflag =>
          by_cases hcut : bytes.length < headLength + if bytes[41]? != some 0 then 16 else 8
          · rw [if_pos hcut]
            exact iff_of_true rfl ⟨by omega, by simpa using hmarker, by simpa using hflag, hcut⟩
          · rw [if_neg hcut]
            exact iff_of_false nofun fun h => hcut h.2.2.2

theorem readHeader_eq_truncated_iff (files : FileTree) (path : Path) :
    (readHeader files path : Except Fault (Header K V)) = .error (.format .truncated) ↔
      CutShort files path := by
  unfold readHeader CutShort
  cases files.read path with
  | error fault => exact iff_of_false nofun fun ⟨_, h, _⟩ => nomatch h
  | ok bytes =>
      have hcut : (∃ found, (.ok bytes : Except FileFault (List UInt8)) = .ok found ∧
          Header.BreaksOff found) ↔ Header.BreaksOff bytes := by
        refine ⟨fun ⟨found, hfound, h⟩ => ?_, fun h => ⟨bytes, rfl, h⟩⟩
        cases hfound
        exact h
      rw [hcut, ← Header.decode_eq_truncated_iff (K := K) (V := V) path.toText bytes]
      dsimp only
      cases hdecode : (Header.decode path.toText bytes : Except FormatFault (Header K V)) with
      | ok header => exact iff_of_false nofun nofun
      | error fault => simp

end Idf

namespace CommandLine

open Script Run

section Reading

variable {files : FileTree} {path : Path} {fault : Fault}

/-- What reading a header fails by is reported unless the header breaks off. -/
theorem fails_readHeader (files : FileTree) (path : Path) :
    Fails (fun fault => isReported fault = true ∨ Idf.CutShort files path)
      (Idf.readHeader files path : Except Fault (Idf.Header K V)) := by
  intro fault hfault
  have hkind := Idf.fails_readHeader (K := K) (V := V) files path fault hfault
  cases fault with
  | file cause => exact .inl rfl
  | format cause =>
      cases cause with
      | truncated =>
          exact .inr ((Idf.readHeader_eq_truncated_iff (K := K) (V := V) files path).mp hfault)
      | _ => exact .inl rfl
  | grid cause => cases cause <;> first | exact .inl rfl | cases hkind
  | _ => cases hkind

end Reading

section Settings

variable {choices : Choices} {script : Text} {session after : Session K V S} {fault : Fault}

theorem fails_ofText (text : Text) :
    Fails (fun fault => isReported fault = true)
      (Extent.ofText text : Except Fault (Extent K)) := by
  unfold Extent.ofText
  dsimp only
  split
  next =>
    split
    next => exact Extent.fails_of (fun _ _ _ _ => rfl) _ _ _ _
    next => exact .throw rfl
  next => exact .throw rfl

end Settings

end CommandLine

namespace Script

open Run

section Unrolling

/-- A fault that tells of a line, or of a number in one that cannot be read. -/
def OfLine (fault : Fault) : Prop :=
  (∃ number text cause, fault = .line number text cause) ∨ fault = .number .unreadable

theorem OfLine.line (line : Line) (cause : Fault) : OfLine (line.fault cause) :=
  .inl ⟨_, _, _, rfl⟩

end Unrolling

variable [Cell S V] [Conversion K V] {plan : Plan K V} {session before after : Session K V S}
  {fault : Fault}

end Script

namespace CommandLine

open Script Run

variable [Cell S V] [Conversion K V] {session after : Session K V S} {fault : Fault}

variable {choices : Choices} {environment : Environment} {script : Text}

section Cut

end Cut

end CommandLine

end MapAlgebra
