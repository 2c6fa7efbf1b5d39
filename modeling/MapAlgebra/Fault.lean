import MapAlgebra.Text.Quoted

/-!
# Faults

What can go wrong, one type for each part of the library, and the wording of the faults that this
library detects itself. Faults that only the host can word (a missing file, a number without a
whole part) have none.
-/

namespace MapAlgebra

/-- A number cannot be used where a whole number or a single precision number is asked for. -/
inductive NumberFault
  | notANumber
  | infinite
  | tooLarge
  | divisionByZero
  | unreadable
  deriving DecidableEq, Repr

/-- The file system refuses an access. -/
inductive FileFault
  | notFound
  | notDirectory
  | isDirectory
  | alreadyExists
  | invalidName
  | notText
  deriving DecidableEq, Repr

/-- The text of an expression or one of its tokens is not acceptable. Positions count characters
from one; no character found means the end of the text. -/
inductive ExpressionFault
  | empty
  | unexpectedClosing (position : Nat) (text : Text)
  | unclosed (count : Nat) (text : Text)
  | expected (wanted : Text) (position : Nat) (found : Option Char) (text : Text)
  | missingOperand (position : Nat) (found : Option Char) (text : Text)
  | unexpectedEnd (terminators text : Text)
  | unexpected (found : Char) (position : Nat) (text : Text)
  /-- A row of operands does not end where its operators end. No text is read as such a row. -/
  | uneven
  | tooDeep (limit : Int)
  | unknownToken (token : Text)
  | unknownFunction (name : Text)
  | argumentCount (function : String) (least most found : Nat)
  | gridExpected (position : Nat) (function : String) (argument : Text)
  | constantExpected (position : Nat) (function : String) (argument : Text)
  | invalidCellSize (function size : String)
  | invalidMethod (family : String) (index : Int) (function valid : String)
  deriving DecidableEq, Repr

/-- An operation on grids cannot be carried out. -/
inductive GridFault
  | cellSize (size : String)
  | valuesShape (shape : String)
  | unknownOperator (sign : Text)
  | shapesDiffer
  | outsideCells
  | unknownMethod
  | nothingLeft
  | cornersSwapped (xur yur xll yll : String)
  | onDisk (slot : Option Nat)
  deriving DecidableEq, Repr

/-- A file does not hold a grid. -/
inductive FormatFault
  | short (path : Text)
  | doublePrecision (path : Text)
  | marker (found : Int) (path : Text)
  | notEquidistant (path : Text)
  /-- The fields of a header do not fit into its bytes, or its bytes end before the fields do. -/
  | truncated
  | cellCount (wanted : Int) (path : Text) (found : Nat)
  deriving DecidableEq, Repr

/-- Run options contradict each other or cannot be read. -/
inductive SettingsFault
  | decimalsMissing
  | depthBelowOne
  | coordinateCount (text : Text)
  | coordinates (text : Text)
  deriving DecidableEq, Repr

/-- A line or the structure of a script is not acceptable. -/
inductive ScriptFault
  | invalidFor (text : Text)
  | forEnd (text : Text)
  | nextMismatch (next loop : Text)
  | nextWithoutFor
  | forWithoutNext (loop : Text)
  | reserved (sequence : Text)
  | equalSigns
  | missingName
  | missingExpression (name : Text)
  | missingNameAfter (folder : Text)
  | invalidStatement (text : Text)
  | unexpectedStatement (text : Text)
  deriving DecidableEq, Repr

/-- The cause of a failure. -/
inductive Fault
  | number (fault : NumberFault)
  | file (fault : FileFault)
  | expression (fault : ExpressionFault)
  | grid (fault : GridFault)
  | format (fault : FormatFault)
  | settings (fault : SettingsFault)
  | script (fault : ScriptFault)
  | missingFile (path : Text)
  | scriptSuffix (name : Text)
  | scriptMissing (path : Text)
  | unbound (name : Text)
  /-- A graceful end of the run. -/
  | quietStop (reason : String)
  /-- A script line failed. -/
  | line (number : Nat) (text : Text) (cause : Fault)
  deriving DecidableEq, Repr

namespace ExpressionFault

private def foundText : Option Char → String
  | some c => str (Text.quoted [c])
  | none => str (Text.quoted "end of expression".toList)

def message : ExpressionFault → String
  | empty => "Empty expression"
  | unexpectedClosing position text =>
      s!"Unexpected ')' at position {position} in expression: {str text}"
  | unclosed count text =>
      s!"Uneven number of parentheses ({count} unclosed) in expression: {str text}"
  | expected wanted position found text =>
      s!"Expected '{str wanted}' at position {position}, found {foundText found}: {str text}"
  | missingOperand position found text =>
      s!"Missing operand at position {position} (found {foundText found}): {str text}"
  | unexpectedEnd terminators text =>
      let wanted := str (Text.quoted terminators)
      s!"Unexpected end of expression, expected one of {wanted}: {str text}"
  | unexpected found position text =>
      s!"Unexpected '{str [found]}' at position {position}: {str text}"
  | uneven => "Operands and operators do not match"
  | tooDeep limit => s!"Expression nesting exceeds maximum depth of {limit}"
  | unknownToken token => s!"Unknown token '{str token}'"
  | unknownFunction name => s!"Unknown function '{str name}'"
  | argumentCount function least most found =>
      let wanted := if least = most then s!"{least}" else s!"{least} to {most}"
      s!"Function '{function}' expects {wanted} argument(s), got {found}"
  | gridExpected position function argument =>
      let place := s!"Argument {position} of '{function}'"
      s!"{place} should be a grid, constant found: {str argument}"
  | constantExpected position function argument =>
      let place := s!"Argument {position} of '{function}'"
      s!"{place} should be a constant value, grid found: {str argument}"
  | invalidCellSize function size => s!"Invalid cellsize for '{function}': {size}"
  | invalidMethod family index function valid =>
      s!"Invalid {family} {index} for '{function}', valid: {valid}"

end ExpressionFault

namespace GridFault

/-- The wording; none for faults of the arithmetic underneath. -/
def message? : GridFault → Option String
  | cellSize size => some s!"Cellsize must be positive, got {size}"
  | valuesShape shape => some s!"Grid values must be 2-dimensional, got shape {shape}"
  | unknownOperator sign => some s!"Unknown grid operator: {str (Text.quoted sign)}"
  | cornersSwapped xur yur xll yll =>
      let upper := s!"({xur}, {yur})"
      let lower := s!"({xll}, {yll})"
      some <| s!"Value error, Extent upper-right corner {upper} lies " ++
        s!"below/left of lower-left corner {lower}"
  | shapesDiffer | outsideCells | unknownMethod | nothingLeft | onDisk _ => none

end GridFault

namespace FormatFault

/-- The wording; none for a header that its fields do not fit. -/
def message? : FormatFault → Option String
  | short path => some s!"File too short for an IDF header: {str path}"
  | doublePrecision path => some s!"Double precision IDF files are not supported: {str path}"
  | marker found path => some s!"Invalid IDF record marker {found} in {str path}"
  | notEquidistant path => some s!"Non-equidistant IDF files are not supported: {str path}"
  | truncated => none
  | cellCount wanted path found => some s!"Expected {wanted} values in {str path}, found {found}"

end FormatFault

namespace SettingsFault

def message : SettingsFault → String
  | decimalsMissing => "Value error, round_results requires a non-negative decimal_count"
  | depthBelowOne => "Input should be greater than or equal to 1"
  | coordinateCount text => s!"Expected 4 coordinates for extent, got: {str (Text.quoted text)}"
  | coordinates text => s!"Invalid extent coordinates: {str (Text.quoted text)}"

end SettingsFault

namespace ScriptFault

def message : ScriptFault → String
  | invalidFor text => s!"Invalid FOR-statement: {str text}"
  | forEnd text =>
      "FOR-loop end should be an integer or count(\"<filter>\"): " ++ str text
  | nextMismatch next loop => s!"NEXT {str next} does not match FOR {str loop}"
  | nextWithoutFor => "NEXT without FOR"
  | forWithoutNext loop => s!"FOR {str loop} without NEXT"
  | reserved sequence => s!"Invalid character sequence '{str sequence}' in statement"
  | equalSigns => "Exactly one equal sign is expected in an assignment"
  | missingName => "Missing variable name before '='"
  | missingExpression name => s!"Missing expression for variable '{str name}'"
  | missingNameAfter folder => s!"Missing variable name after prefix '{str folder}'"
  | invalidStatement text => s!"Invalid statement, assignment expected: {str text}"
  | unexpectedStatement text => s!"Unexpected statement: {str text}"

end ScriptFault

namespace Fault

/-- Whether a value was refused by the type it was meant for. The report of a failed line leaves
the wording of such a fault to the host. -/
def isRejection : Fault → Bool
  | grid (.cornersSwapped ..) => true
  | settings .decimalsMissing => true
  | settings .depthBelowOne => true
  | _ => false

/-- The wording of a fault; none when only the host can word it. -/
def message? : Fault → Option String
  | number _ => none
  | file _ => none
  | expression fault => some fault.message
  | grid fault => fault.message?
  | format fault => fault.message?
  | settings fault => some fault.message
  | script fault => some fault.message
  | missingFile path => some s!"IDF-file does not exist: {str path}"
  | scriptSuffix name => some s!"Only .ini script files are supported, got: {str name}"
  | scriptMissing path => some s!"Script file does not exist: {str path}"
  | unbound name => some (str (Text.quoted name))
  | quietStop reason => some reason
  | line place text cause =>
      if cause.isRejection then none
      else cause.message?.map fun reason => s!"Error in line {place}: {reason}: {str text}"

instance : MonadLift (Except NumberFault) (Except Fault) where
  monadLift
    | .ok a => .ok a
    | .error fault => .error (.number fault)

end Fault

end MapAlgebra
