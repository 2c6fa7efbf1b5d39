import MapAlgebra.CommandLine.Options
import MapAlgebra.Script.Interpreter

/-!
# The program

The program makes settings of the choices on the command line, runs the script and reports how it
went by an exit code: zero for a run to its end, one for a failure and two for arguments that are
not acceptable.
-/

namespace MapAlgebra.CommandLine

variable {K V S : Type} [Coordinate K] [Number V] [Cell S V] [Conversion K V]

/-- Whether the program reports a fault as the outcome of the run. Numbers beyond their range and a
header that breaks off end the program itself. -/
def isReported : Fault → Bool
  | .number .notANumber | .number .unreadable => true
  | .number _ => false
  | .grid .outsideCells | .grid .nothingLeft | .grid (.onDisk _) => false
  | .grid _ => true
  | .format .truncated => false
  | .format _ => true
  | .unbound _ | .quietStop _ => false
  | .file _ | .expression _ | .settings _ | .script _ => true
  | .missingFile _ | .scriptSuffix _ | .scriptMissing _ | .line .. => true

/-- The least level of the records that a run shows. -/
def Choices.threshold (choices : Choices) : Level :=
  if choices.debug then .debug else .info

/-- The records that a run with the given arguments shows. -/
def shownRecords (arguments : List Text) (records : List Record) : List Record :=
  match Choices.ofArguments arguments with
  | .ok choices => records.filter fun record => choices.threshold.rank ≤ record.level.rank
  | .error _ => []

/-- Empties the log file, if there is one, and sends records to it from now on. -/
def openLog (choices : Choices) : Run K V S Unit := do
  match choices.logFile with
  | some (c :: name) =>
      let path := (← get).files.absolute (Path.ofText (c :: name))
      Run.writeFile path []
      modify fun session =>
        { session with logFile := some { path, threshold := choices.threshold } }
  | _ => return ()

/-- The extent that a text writes, or that of the grid in the file it names. -/
def readExtent (base : Path) (text : Text) : Run K V S (Extent K) := do
  if Text.endsCaseless Expression.idfSuffix text then
    let grid : Grid K V S ← Run.traced (Grid.read (← get).files (base.join (Path.ofText text)))
    return grid.extent
  liftExcept (Extent.ofText text)

/-- The value that takes the place of cells without data. -/
def readNodata (text : Text) : Except Fault (Option V) :=
  if text == ownNodata then .ok none
  else
    match Reading.numeral? text with
    | some numeral => .ok (some (Number.ofNumeral numeral))
    | none => .error (.number .unreadable)

/-- The settings of a run. Results go to the directory of the script unless one is chosen. -/
def Choices.settings (choices : Choices) (script : Text) : Run K V S (Settings K V) := do
  let base := ((← get).files.absolute (Path.ofText script)).parent
  let nodata ← liftExcept (choices.nodata.mapM readNodata)
  let extent ←
    match choices.extent with
    | some (c :: text) => some <$> readExtent base (c :: text)
    | _ => pure none
  let settings : Settings K V := {
    base := some base
    output := some (if choices.output.isEmpty then base else Path.ofText choices.output)
    extent
    nodataAsValue := choices.nodata.isSome
    nodata := nodata.join
    debug := choices.debug
    writeIntermediate := choices.intermediate
    verbose := choices.verbose
    quiet := choices.quiet
    addMetadata := choices.metadata
    roundResults := choices.round.isSome
    decimals := choices.round.getD (-1)
    maxDepth := choices.maxDepth.getD 100 }
  match settings.check with
  | .ok settings => return settings
  | .error fault => throw (.settings fault)

/-- Runs the script of the choices. -/
def Choices.execute (choices : Choices) (environment : Script.Environment) (script : Text) :
    Run K V S Unit := do
  let settings : Settings K V ← choices.settings script
  Run.makeDirectories (settings.outputDirectory (← get).files)
  modify fun session => { session with table := (Script.start session.files).table }
  let plan : Script.Plan K V := { settings, environment }
  plan.runFile (Path.ofText script)

/-- Runs the program and gives its exit code. Faults that this library does not word are worded by
`describe`. -/
def program (describe : Fault → String) (environment : Script.Environment)
    (arguments : List Text) : Run K V S Nat := do
  match Choices.ofArguments arguments with
  | .error .help => return 0
  | .error .misuse => return 2
  | .ok choices =>
      openLog choices
      tryCatch
        (do
          choices.execute environment (choices.script.getD [])
          return 0)
        fun fault => do
          if isReported fault then
            Run.record .error s!"Error: {fault.message?.getD (describe fault)}"
            return 1
          else throw fault

end MapAlgebra.CommandLine
