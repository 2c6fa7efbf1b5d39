import MapAlgebra.Expression.Chain
import MapAlgebra.Expression.Function
import MapAlgebra.Expression.Merging
import MapAlgebra.Session

/-!
# Evaluating expressions

The terms of a chain are evaluated from left to right and then merged. Every term, every call of a
function and every merge takes the next number of the session, and with tracing on the results of
calls and merges are logged and written to files named by their numbers.
-/

namespace MapAlgebra.Expression

variable {K V S : Type} [Coordinate K] [Number V] [Cell S V] [Conversion K V]

/-- An evaluated term of a chain and the operator behind it; no operator ends the chain. -/
structure Link (K V S : Type) extends Part K V S where
  action : Option Operator
  id : Text
  depth : Nat

/-- The link as an operand of a row. -/
def Link.placed (link : Link K V S) : Placed (Link K V S) :=
  ⟨link, link.action⟩

/-- What evaluation looks things up in. -/
structure Scope (K V : Type) where
  settings : Settings K V
  prepared : Prepared

/-- The number that a token writes. -/
def literal? (token : Text) : Option V :=
  let (negative, body) := Reading.sign token
  (Reading.unsignedDecimal? body).map fun (digits, exponent) =>
    Number.ofNumeral (.decimal negative digits exponent)

def idfSuffix : Text := ".idf".toList

/-- The operand with its NoData cells taking part in calculations, if the settings say so. -/
def substituteNodata (settings : Settings K V) : Operand K V S → Operand K V S
  | .constant c => .constant c
  | .grid g =>
      if settings.nodataAsValue then
        .grid { g with substitute := some (settings.nodata.getD g.nodata) }
      else .grid g

/-- The path of intermediate results. -/
def tracePath (settings : Settings K V) (files : FileTree) (id : Text) : Path :=
  (settings.outputDirectory files).join ⟨[], ["debug".toList, id ++ ".IDF".toList]⟩

def traceMetadata (id text : Text) : Metadata where
  description := "Intermediate result of expression evaluation: ".toList ++ text
  process := id ++ " = ".toList ++ text

/-- Records the result of a part of an expression. -/
def emit (settings : Settings K V) (id text : Text) (value : Operand K V S) : Run K V S Unit := do
  if settings.traces then
    Run.record .info s!"Evaluating expression '{str id} = {str text}'"
    match value with
    | .constant c => Run.record .info s!"  {str id} = {Number.general c.value}"
    | .grid g =>
        let path := tracePath settings (← get).files id
        let metadata := if settings.addMetadata then some (traceMetadata id text) else none
        Run.changeFiles (g.write path metadata)
        Run.record .debug s!"  written to {str path.toText}"

namespace Scope

/-- The grid in a file, its cells resident. -/
def readFile (scope : Scope K V) (name : Text) : Run K V S (Operand K V S) := do
  let files := (← get).files
  let path := scope.settings.resolveInput name
  if !files.pathExists path then
    if scope.settings.quiet then
      throw (.quietStop s!"IDF-file does not exist: {str path.toText}")
    throw (.missingFile path.toText)
  let grid : Grid K V S ← Run.traced (Grid.read files path)
  return .grid (← liftExcept (grid.load files))

/-- The value bound to a name. It is kept loaded, with NoData cells as the settings say. -/
def readVariable (scope : Scope K V) (name : Text) : Run K V S (Part K V S) := do
  let session ← get
  let binding ← liftExcept (session.table.item name)
  let value ← liftExcept (binding.value.load session.files)
  let value := substituteNodata scope.settings value
  set { session with table := session.table.update value }
  let provenance := if value.isConstant then Provenance.constant else .variable
  return ⟨value, provenance, binding.name⟩

/-- The value of a name: a variable, the keyword for no data, or a file. -/
def resolveName (scope : Scope K V) (name : Text) : Run K V S (Part K V S) := do
  match scope.prepared.name? name with
  | some bound => scope.readVariable bound
  | none =>
      if isNodataToken name then
        return ⟨.constant Constant.ofKeyword, .constant, Constant.nodataName⟩
      else if Text.endsCaseless idfSuffix name then
        let value ← scope.readFile name
        return ⟨substituteNodata scope.settings value, .file, name⟩
      else throw (.expression (.unknownToken (scope.prepared.expand name)))

/-- The part negated, if it has a minus sign. -/
def signed (negated : Bool) (part : Part K V S) : Run K V S (Part K V S) := do
  if negated then
    let value ← liftExcept part.value.negate
    return { part with value, token := '-' :: part.token }
  else return part

/-- The value of a token. -/
def resolveToken (scope : Scope K V) (token : Text) : Run K V S (Part K V S) := do
  match (literal? token : Option V) with
  | some value => return ⟨.constant (.of value), .constant, token⟩
  | none =>
      let (negated, name) := signedName token
      signed negated (← scope.resolveName name)

/-- The constant that the keyword for no data stands for beside another operand. -/
def nodataBeside (other : Operand K V S) : Constant V :=
  let plain := other.isConstant && Number.isNaN other.nodata
  let nodata := if plain then Constant.defaultNodata else other.nodata
  .of nodata nodata Constant.nodataName

/-- The values of two operands, where the keyword for no data takes the NoData value of the other
one. -/
def nodataResolved (left right : Part K V S) : Operand K V S × Operand K V S :=
  let a := if isNodataToken left.token then .constant (nodataBeside right.value) else left.value
  let b := if isNodataToken right.token then .constant (nodataBeside a) else right.value
  (a, b)

/-- Two operands brought to a common extent and combined. -/
def combine (scope : Scope K V) (left : Part K V S) (op : Operator) (right : Part K V S) :
    Traced (Operand K V S) := do
  let (a, b) := nodataResolved left right
  let target := targetExtent scope.settings.extent .first [a, b]
  let a ← a.reconcile target "left operand"
  let b ← b.reconcile target "right operand"
  liftExcept (a.apply op b)

/-- Merges two links of a chain into one. -/
def mergeLinks (scope : Scope K V) (left : Link K V S) (op : Operator) (right : Link K V S) :
    Run K V S (Link K V S) := do
  let id ← Run.nextId
  let text := left.token ++ op.sign ++ right.token
  let value ← Run.traced (scope.combine left.toPart op right.toPart)
  emit scope.settings id (scope.prepared.expand text) value
  return ⟨⟨value, .complex, id⟩, right.action, id, left.depth⟩

/-- Merges the links of a chain into one. -/
def merge (scope : Scope K V) (first : Link K V S) (rest : List (Link K V S)) :
    Run K V S (Link K V S) := do
  match ← (mergeRow scope.mergeLinks ((first :: rest).map Link.placed)).run with
  | some link => return link
  | none => throw (.expression .uneven)

/-- Refuses a chain deeper than the settings allow. -/
def checkDepth (scope : Scope K V) (depth : Nat) : Run K V S Unit := do
  if scope.settings.maxDepth < depth then
    throw (.expression (.tooDeep scope.settings.maxDepth))

/-- The fault of a break in the text. -/
def breakFault (scope : Scope K V) (wanted : Text) (left : Nat) : ExpressionFault :=
  let cursor := Cursor.withLeft scope.prepared.text left
  let shown := scope.prepared.expand scope.prepared.text
  match cursor.peek? with
  | none => .unexpectedEnd wanted shown
  | some c => .unexpected c (cursor.position + 1).toNat shown

/-- The fault of a place without the operand that is due. -/
def missingFault (scope : Scope K V) (left : Nat) : ExpressionFault :=
  let cursor := Cursor.withLeft scope.prepared.text left
  .missingOperand (cursor.position + 1).toNat cursor.peek?
    (scope.prepared.expand scope.prepared.text)

/-- The value of a function for evaluated arguments. -/
def call (scope : Scope K V) (function : Function) (arguments : List (Part K V S)) :
    Run K V S (Part K V S) := do
  let value ← Run.traced (function.compute scope.settings.extent scope.prepared arguments)
  let id ← Run.nextId
  let tokens := List.intercalate [','] (arguments.map (·.token))
  let text := function.name.toList ++ '(' :: tokens ++ [')']
  emit scope.settings id (scope.prepared.expand text) value
  return ⟨value, function.provenance, id⟩

/-- An evaluated term with the next number. -/
def link (depth : Nat) (action : Option Operator) (part : Part K V S) :
    Run K V S (Link K V S) := do
  return ⟨part, action, ← Run.nextId, depth⟩

mutual

/-- The first link of a chain and the others. -/
def evaluateLinks (scope : Scope K V) (depth : Nat) :
    Chain → Run K V S (Link K V S × List (Link K V S))
  | .last term => do
      let part ← evaluateTerm scope depth term
      return (← link depth none part, [])
  | .join term op rest => do
      let part ← evaluateTerm scope depth term
      let first ← link depth (some op) part
      let (second, more) ← evaluateLinks scope depth rest
      return (first, second :: more)
  | .broken term wanted left => do
      let _ ← evaluateTerm scope depth term
      throw (.expression (scope.breakFault wanted left))

/-- The value of a term of a chain at a depth. -/
def evaluateTerm (scope : Scope K V) (depth : Nat) : Term → Run K V S (Part K V S)
  | .token text => scope.resolveToken text
  | .missing left => throw (.expression (scope.missingFault left))
  | .group negated body => do
      scope.checkDepth (depth + 1)
      let (first, rest) ← evaluateLinks scope (depth + 1) body
      let result ← scope.merge first rest
      signed negated result.toPart
  | .call negated name arguments => do
      match Function.ofName? name with
      | none => throw (.expression (.unknownFunction name))
      | some function =>
          let parts ← evaluateArguments scope (depth + 1) arguments
          signed negated (← scope.call function parts)

/-- The values of arguments at a depth. -/
def evaluateArguments (scope : Scope K V) (depth : Nat) : Arguments → Run K V S (List (Part K V S))
  | .none => return []
  | .more chain others => do
      scope.checkDepth depth
      let (first, rest) ← evaluateLinks scope depth chain
      let result ← scope.merge first rest
      return result.toPart :: (← evaluateArguments scope depth others)

end

end Scope

/-- The value of an expression and what kind of expression it comes from. -/
def evaluate (settings : Settings K V) (prepared : Prepared) :
    Run K V S (Operand K V S × Provenance) := do
  let scope : Scope K V := ⟨settings, prepared⟩
  scope.checkDepth 0
  let (first, rest) ← scope.evaluateLinks 0 (readChain [] prepared.text).1
  let result ← scope.merge first rest
  return (result.value, if result.value.isConstant then .constant else result.provenance)

/-- The value of a text as an expression over the variables of the session. -/
def parse (settings : Settings K V) (source : Text) : Run K V S (Operand K V S × Provenance) := do
  match prepare source (← get).table.namesLongestFirst with
  | .error fault => throw (.expression fault)
  | .ok prepared => evaluate settings prepared

end MapAlgebra.Expression
