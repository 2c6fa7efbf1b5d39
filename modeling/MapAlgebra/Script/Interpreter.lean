import MapAlgebra.Expression.Evaluation
import MapAlgebra.Script.Loop

/-!
# Running scripts

A script is run line by line. The value of an assignment is written to the output directory if it
was computed, bound to its name, and the cells of all bound grids that are on disk are given up. A
line that fails ends the run; what the lines before it did stays.
-/

namespace MapAlgebra.Script

variable {K V S : Type} [Coordinate K] [Number V] [Cell S V] [Conversion K V]

/-- What a run depends on and does not change. -/
structure Plan (K V : Type) where
  settings : Settings K V
  environment : Environment := []
  /-- Where the script comes from, for metadata; empty when it comes from no file. -/
  source : Text := []

/-- A session before the first line, in which the keyword for no data is bound. -/
def start (files : FileTree) : Session K V S :=
  let binding : Binding K V S := {
    name := Constant.nodataName
    value := .constant Constant.ofKeyword
    provenance := .constant
    isPersisted := true }
  { files, table := VariableTable.bind {} binding }

/-- Characters that make a text that ends like a file name an expression. Path separators, colons
and dashes may be part of a file name. -/
def isExpressionChar (c : Char) : Bool :=
  ['(', ')', ',', '*', '+', '^', '=', '!', '<', '>', '&', '|'].contains c

namespace Plan

/-- Whether the right side of an assignment is just a file name. -/
def isFileName (plan : Plan K V) (files : FileTree) (expression : Text) : Bool :=
  Text.endsCaseless Expression.idfSuffix expression &&
    (files.pathExists (plan.settings.resolveInput expression) ||
      !expression.any isExpressionChar)

/-- The grid in a file, its cells still on disk. -/
def openFile (plan : Plan K V) (name : Text) : Run K V S (Operand K V S) := do
  let files := (← get).files
  let path := plan.settings.resolveInput name
  if !files.pathExists path then
    if plan.settings.quiet then
      throw (.quietStop s!"IDF-file not found: {str name}")
    throw (.missingFile path.toText)
  return .grid (← Run.traced (Grid.read files path))

/-- The value of the right side of an assignment. -/
def value (plan : Plan K V) (expression : Text) : Run K V S (Operand K V S × Provenance) := do
  if plan.isFileName (← get).files expression then
    return (← plan.openFile expression, .file)
  Expression.parse plan.settings expression

/-- Where the result of an assignment is written. -/
def resultPath (plan : Plan K V) (files : FileTree) (assignment : Assignment) : Path :=
  let directory := plan.settings.outputDirectory files
  let directory :=
    match assignment.folder with
    | some (c :: folder) => directory.join (Path.ofText (c :: folder))
    | _ => directory
  directory.join ⟨[], [assignment.name ++ ".IDF".toList]⟩

def resultMetadata (plan : Plan K V) (assignment : Assignment) : Metadata where
  description := "Expression evaluation using IDF files: ".toList ++ assignment.expression
  process := "Automatically generated with idfexp".toList
  source := plan.source

/-- Writes a result and gives it the name of the assignment and its file. -/
def save (plan : Plan K V) (assignment : Assignment) (grid : Grid K V S) :
    Run K V S (Grid K V S × Option Metadata) := do
  let settings := plan.settings
  let path := plan.resultPath (← get).files assignment
  let metadata := if settings.addMetadata then some (plan.resultMetadata assignment) else none
  let output ← liftExcept <|
    if settings.roundResults then grid.roundTo settings.decimals else .ok grid
  Run.changeFiles (output.write path metadata)
  Run.record .info s!"Expression file has been written to: {str path.name}"
  return ({ grid with path := some path, name := assignment.name }, metadata)

/-- A value that no variable has, which is a copy when one has it. -/
def unowned (table : VariableTable K V S) (name : Text) (value : Operand K V S) :
    Except Fault (Operand K V S) :=
  if table.owns value.slot then value.copy name else .ok value

/-- Carries an assignment out. -/
def assign (plan : Plan K V) (assignment : Assignment) : Run K V S (Binding K V S) := do
  let (value, provenance) ← plan.value assignment.expression
  let value ← liftExcept (unowned (← get).table assignment.name value)
  let (value, metadata) ←
    match value with
    | .grid g =>
        if provenance.isPersisted then pure (value, none)
        else
          let (saved, metadata) ← plan.save assignment g
          pure (Operand.grid saved, metadata)
    | .constant _ => pure (value, none)
  let binding : Binding K V S := {
    name := assignment.name, value, provenance
    folder := assignment.folder
    metadata
    isPersisted := true }
  let session ← get
  let (table, _) := (session.table.bind binding).releaseAll session.files
  set { session with table }
  return (table.get? assignment.name).getD binding

/-- Carries a statement out. An assignment gives its binding. -/
def execute (plan : Plan K V) (line : Line) (statement : Statement) :
    Run K V S (Option (Binding K V S)) := do
  match statement with
  | .blank => return none
  | .comment text =>
      if plan.settings.verbose || plan.settings.debug then
        Run.record .info s!"Remark: {str text}"
      return none
  | .assign assignment =>
      let shown := str (Text.trim line.text)
      Run.record .info s!"Evaluating expression at line {line.number}: '{shown}' ..."
      return some (← plan.assign assignment)
  | .loop _ | .next _ => throw (.script (.unexpectedStatement (Text.trim line.text)))

/-- The fault of a line that failed. A graceful end of the run is none. -/
def lineFault (line : Line) : Fault → Fault
  | .quietStop reason => .quietStop reason
  | .line number text cause => .line number text cause
  | fault => line.fault fault

/-- Carries a line out. -/
def executeLine (plan : Plan K V) (line : Line) : Run K V S (Option (Binding K V S)) :=
  tryCatch (do plan.execute line (← liftExcept (Statement.ofText line.text))) fun fault =>
    throw (lineFault line fault)

/-- The lines to carry out: loops unrolled, then names of the environment replaced. -/
def prepareLines (plan : Plan K V) (files : FileTree) (source : Text) :
    Except Fault (List Line) := do
  let base := plan.settings.base.getD files.currentPath
  let lines ← unroll files base (readLines source)
  return lines.map fun line => { line with text := plan.environment.expand line.text }

/-- Writes the lines to carry out next to the results. -/
def writeLines (plan : Plan K V) (lines : List Line) : Run K V S Unit := do
  let directory := plan.settings.outputDirectory (← get).files
  Run.makeDirectories directory
  let name := (Path.ofText plan.source).stem ++ "_expanded.ini".toList
  let path := directory.join ⟨[], [name]⟩
  let text := lines.map (·.text) |>.intersperse ['\n'] |>.flatten
  Run.writeFile path (Bytes.ofText (text ++ ['\n']))
  Run.record .info s!"Script with expanded environment variables written to: {str path.toText}"

/-- Carries lines out one after the other. -/
def executeLines (plan : Plan K V) : List Line → Run K V S Unit
  | [] => return ()
  | line :: rest => do
      let _ ← plan.executeLine line
      executeLines plan rest

/-- Runs a script. A graceful end is no failure. -/
def run (plan : Plan K V) (source : Text) : Run K V S Unit := do
  let lines ← liftExcept (plan.prepareLines (← get).files source)
  if plan.settings.debug && !plan.source.isEmpty then
    plan.writeLines lines
  tryCatch
    (do
      plan.executeLines lines
      Run.record .info "Finished processing script")
    fun
      | .quietStop reason => Run.record .info s!"Stopping quietly: {reason}"
      | fault => throw fault

/-- The text of a script file. -/
def readScript (files : FileTree) (path : Path) : Except Fault Text := do
  if Text.lowerAscii path.suffix != ".ini".toList then
    throw (.scriptSuffix path.name)
  if !files.pathExists path then
    throw (.scriptMissing path.toText)
  match files.read path with
  | .error fault => throw (.file fault)
  | .ok bytes =>
      match Bytes.toText? bytes with
      | some text => return Text.unifyLineFeeds (Bytes.dropMark text)
      | none => throw (.file .notText)

/-- Runs the script in a file. -/
def runFile (plan : Plan K V) (path : Path) : Run K V S Unit := do
  let text ← liftExcept (readScript (← get).files path)
  run { plan with source := path.toText } text

end Plan

end MapAlgebra.Script
