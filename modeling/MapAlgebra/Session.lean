import MapAlgebra.Settings
import MapAlgebra.Variables

/-!
# Sessions

A session is the state of a run: the files, the variables, the count of expressions and the log
records so far. A step of a run that fails leaves what it did before the failure.
-/

namespace MapAlgebra

/-- A file that log records go to as well, from a level on. -/
structure LogFile where
  path : Path
  threshold : Level
  /-- Where the next record begins. -/
  offset : Nat := 0

structure Session (K V S : Type) where
  files : FileTree
  table : VariableTable K V S := {}
  counter : Nat := 0
  log : List Record := []
  logFile : Option LogFile := none

namespace Session

variable {K V S : Type}

/-- The session after a log record. -/
def addRecord (session : Session K V S) (record : Record) : Session K V S :=
  let session := { session with log := session.log ++ [record] }
  match session.logFile with
  | none => session
  | some target =>
      if record.level.rank < target.threshold.rank then session
      else
        let bytes := Bytes.ofText (record.text.toList ++ ['\n'])
        { session with
          files := session.files.writeAt target.path target.offset bytes
          logFile := some { target with offset := target.offset + bytes.length } }

end Session

/-- A step of a run. -/
abbrev Run (K V S : Type) := ExceptT Fault (StateM (Session K V S))

namespace Run

variable {K V S α : Type}

/-- The outcome of a step and the session after it. -/
def from? (session : Session K V S) (step : Run K V S α) : Except Fault α × Session K V S :=
  step.run.run session

def record (level : Level) (text : String) : Run K V S Unit :=
  modify fun session => session.addRecord ⟨level, text⟩

/-- A computation that makes log records, as a step. -/
def traced (computation : Traced α) : Run K V S α := do
  let (outcome, records) := computation.outcome
  modify fun session => records.foldl Session.addRecord session
  liftExcept outcome

/-- The next expression number as a name. -/
def nextId : Run K V S Text := do
  modify fun session => { session with counter := session.counter + 1 }
  return "Exp".toList ++ Nat.toDigits 10 (← get).counter

/-- A change of the files that may fail part of the way. -/
def changeFiles (change : FileTree → Except Fault α × FileTree) : Run K V S α := do
  let (outcome, files) := change (← get).files
  modify fun session => { session with files }
  liftExcept outcome

def writeFile (path : Path) (bytes : List UInt8) : Run K V S Unit :=
  changeFiles fun files =>
    match files.write path bytes with
    | .ok files => (.ok (), files)
    | .error fault => (.error (.file fault), files)

/-- Makes a directory and those above it that are missing. -/
def makeDirectories (path : Path) : Run K V S Unit :=
  changeFiles fun files =>
    let (outcome, files) := files.ensureDirectories path
    (outcome.mapError .file, files)

end Run

end MapAlgebra
