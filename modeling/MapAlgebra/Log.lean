import MapAlgebra.Fault

/-!
# Log records

A record is a level and a line of text. Computations that may fail keep the records they made
before the failure.
-/

namespace MapAlgebra

inductive Level
  | debug
  | info
  | warning
  | error
  deriving DecidableEq, Repr

namespace Level

def rank : Level → Nat
  | debug => 10
  | info => 20
  | warning => 30
  | error => 40

def name : Level → String
  | debug => "DEBUG"
  | info => "INFO"
  | warning => "WARNING"
  | error => "ERROR"

end Level

structure Record where
  level : Level
  text : String
  deriving DecidableEq, Repr

/-- A computation that may fail and makes log records. -/
abbrev Traced := ExceptT Fault (StateM (List Record))

namespace Traced

def record (level : Level) (text : String) : Traced Unit :=
  modify (· ++ [⟨level, text⟩])

/-- The outcome and the records of a computation. -/
def outcome {α : Type} (traced : Traced α) : Except Fault α × List Record :=
  traced.run.run []

end Traced

end MapAlgebra
