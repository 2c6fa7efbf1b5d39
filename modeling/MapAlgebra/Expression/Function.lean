import MapAlgebra.Expression.Prepared
import MapAlgebra.Grid.Alignment
import MapAlgebra.Grid.Scale

/-!
# Functions

The ten functions of expressions. A function takes the values of its arguments, brings grids to a
common extent where it combines them, and gives one value.
-/

namespace MapAlgebra.Expression

/-- An evaluated part of an expression. -/
structure Part (K V S : Type) where
  value : Operand K V S
  provenance : Provenance
  /-- The text that stands for the part in larger ones. -/
  token : Text

inductive Function
  | ifThenElse
  | minimum
  | maximum
  | round
  | enlarge
  | clip
  | scale
  | boundingBox
  | cellSize
  | nodata
  deriving DecidableEq, Repr

namespace Function

def all : List Function :=
  [ifThenElse, minimum, maximum, round, enlarge, clip, scale, boundingBox, cellSize, nodata]

def name : Function → String
  | ifThenElse => "if"
  | minimum => "min"
  | maximum => "max"
  | round => "round"
  | enlarge => "enlarge"
  | clip => "clip"
  | scale => "scale"
  | boundingBox => "bbox"
  | cellSize => "cellsize"
  | nodata => "nd"

/-- The function of a name in any letter case. -/
def ofName? (name : Text) : Option Function :=
  all.find? fun function => function.name.toList == Text.lowerAscii name

/-- The least and the greatest number of arguments. -/
def arity : Function → Nat × Nat
  | ifThenElse => (3, 3)
  | minimum | maximum | round | enlarge | clip | nodata => (2, 2)
  | scale => (2, 4)
  | boundingBox | cellSize => (1, 1)

def admits (function : Function) (count : Nat) : Bool :=
  function.arity.1 ≤ count && count ≤ function.arity.2

/-- The fault of a call with a number of arguments that the function does not take. -/
def countFault (function : Function) (found : Nat) : Fault :=
  .expression (.argumentCount function.name function.arity.1 function.arity.2 found)

def provenance : Function → Provenance
  | ifThenElse => .ifThenElse
  | _ => .function

end Function

/-- The token of the keyword for a value without data, in upper case. -/
def nodataKey : Text := "NODATA".toList

def isNodataToken (token : Text) : Bool :=
  Text.upper token == nodataKey

variable {K V S : Type} [Coordinate K] [Number V] [Cell S V] [Conversion K V]

/-- The grid at a place of a list of arguments that counts from one. -/
def Part.grid (part : Part K V S) (prepared : Prepared) (function : Function) (position : Nat) :
    Except Fault (Grid K V S) :=
  match part.value with
  | .grid g => .ok g
  | .constant _ =>
      let shown := prepared.expand part.token
      .error (.expression (.gridExpected position function.name shown))

/-- The constant at a place of a list of arguments that counts from one. -/
def Part.constant (part : Part K V S) (prepared : Prepared) (function : Function)
    (position : Nat) : Except Fault (Constant V) :=
  match part.value with
  | .constant c => .ok c
  | .grid _ =>
      let shown := prepared.expand part.token
      .error (.expression (.constantExpected position function.name shown))

/-- Whether an argument stands for a value without data. -/
def Part.isNodata (part : Part K V S) : Bool :=
  isNodataToken part.token ||
    match part.value with
    | .constant c => c.isNodata
    | .grid _ => false

/-- A branch of a condition. A constant without data becomes what calculations read from cells
without data of the reference grid. -/
def branch (part : Part K V S) (value : Operand K V S) (reference : Grid K V S) :
    Operand K V S :=
  match value with
  | .grid g => .grid g
  | .constant c =>
      if part.isNodata then
        .constant (.of (reference.substitute.getD reference.nodata) reference.nodata)
      else .constant c

/-- The operand as a grid in the geometry of a reference grid. -/
def onto (operand : Operand K V S) (reference : Grid K V S) : Except Fault (Grid K V S) :=
  match operand with
  | .constant c => c.allocate reference
  | .grid g => if g.sameGeometry reference then .ok g else g.sampleTo reference

/-- A mask as a grid: a constant one has the geometry of the reference grid. -/
def maskGrid (operand : Operand K V S) (reference : Grid K V S) : Except Fault (Grid K V S) :=
  match operand with
  | .constant c => c.allocate reference
  | .grid g => .ok g

/-- What cells are replaced by. -/
def replacement : Operand K V S → V ⊕ Grid K V S
  | .constant c => .inl c.value
  | .grid g => .inr g

/-- The second part where the first is neither zero nor without data, and the third elsewhere. The
first grid among the parts gives the geometry and the NoData value. -/
def choose (fixed : Option (Extent K)) (condition yes no : Part K V S) :
    Traced (Operand K V S) := do
  match condition.value, yes.value, no.value with
  | .constant c, .constant a, .constant b =>
      return .constant (if Number.isTrue c.value then a.copy else b.copy)
  | c, a, b =>
      let target := targetExtent fixed .union [c, a, b]
      let shown := (target.map Extent.toText).getD "None"
      Traced.record .debug s!"if-then-else extent: {shown}"
      let c ← c.reconcile target "condition grid"
      let a ← a.reconcile target "then grid"
      let b ← b.reconcile target "else grid"
      let grids := [c, a, b].filterMap fun
        | .grid g => some g
        | .constant _ => none
      match grids with
      | [] => return c
      | reference :: _ =>
          let a := branch yes a reference
          let b := branch no b reference
          let base ← liftExcept (onto b reference)
          let base ← liftExcept (base.withNodata reference.nodata)
          let mask ← liftExcept (maskGrid c reference)
          return .grid (← liftExcept (base.replace mask (replacement a)))

/-- The smaller or the greater of two operands in every cell. The second one is taken where the
first compares with it by `op`. -/
def extremum (fixed : Option (Extent K)) (function : Function) (op : Operator)
    (first second : Operand K V S) : Traced (Operand K V S) := do
  let inCells (g : Grid K V S) (other : Operand K V S) : Traced (Operand K V S) := do
    let target := fixed.getD g.extent
    let g ← g.reconcile target s!"{function.name} grid 1"
    let other ← other.reconcile (some target) s!"{function.name} grid 2"
    let mask ← liftExcept (g.apply op other)
    return .grid (← liftExcept (g.replace mask (replacement other)))
  match first, second with
  | .constant a, .constant b =>
      let wins := Number.isTrue (op.calculate true a.value b.value)
      return .constant (.of (if wins then b.value else a.value))
  | .constant a, .grid g => inCells g (.constant a)
  | .grid g, other => inCells g other

/-- Cell sizes that differ by less than this part of the greater one count as equal. -/
def sizeTolerance : K := Coordinate.ofInt 1 / Coordinate.ofInt 1000000

def sameSize (a b : K) : Bool :=
  let slack (size : K) : K := Coordinate.distance (sizeTolerance * size) Coordinate.zero
  a == b ||
    (!Coordinate.isInfinite a && !Coordinate.isInfinite b &&
      (Coordinate.distance a b ≤ slack b || Coordinate.distance a b ≤ slack a))

/-- The methods of a family by their numbers, for messages. -/
def validMethods (labels : List String) : String :=
  String.intercalate ", " (labels.zipIdx.map fun (label, index) => s!"{index}={label}")

/-- A grid in cells of another size. Of two methods the first is for smaller cells and the second
for larger ones; a single one is for both. -/
def rescale (prepared : Prepared) (grid : Grid K V S) (size : Operand K V S)
    (methods : List (Part K V S)) : Traced (Operand K V S) := do
  let function := Function.scale
  let cellSize : K :=
    match size with
    | .constant c => Conversion.toCoordinate c.value
    | .grid g => g.cellWidth
  if !(Coordinate.zero < cellSize) || Coordinate.isInfinite cellSize then
    throw <| .expression <|
      .invalidCellSize function.name (Coordinate.shortest cellSize)
  let indices ← methods.zipIdx.mapM fun (method, index) => do
    let constant ← liftExcept (method.constant prepared function (index + 3))
    liftExcept (Number.truncate constant.value : Except Fault Int)
  let source := grid.cellWidth
  let sizes := s!"from {Coordinate.general source} to {Coordinate.general cellSize}"
  if sameSize cellSize source then
    return .grid (← liftExcept grid.copy)
  if cellSize < source then
    Traced.record .debug s!"Downscaling {str grid.name} {sizes}"
    let index := indices.head?.getD 0
    match Refinement.ofIndex? index with
    | some method => return .grid (← liftExcept (grid.refine cellSize method))
    | none =>
        let valid := validMethods (Refinement.all.map Refinement.label)
        throw (.expression (.invalidMethod "DownscaleMethod" index function.name valid))
  else
    Traced.record .debug s!"Upscaling {str grid.name} {sizes}"
    let index := indices.getLast?.getD 0
    match Aggregate.ofIndex? index with
    | some aggregate => return .grid (← liftExcept (grid.coarsen cellSize aggregate))
    | none =>
        let valid := validMethods (Aggregate.all.map Aggregate.label)
        throw (.expression (.invalidMethod "UpscaleMethod" index function.name valid))

/-- A grid brought to the extent of a second argument by `change`; a constant stays. -/
def fit (prepared : Prepared) (function : Function) (operand : Operand K V S)
    (reference : Part K V S) (change : Grid K V S → Extent K → Traced (Grid K V S)) :
    Traced (Operand K V S) := do
  match operand with
  | .constant c => return .constant c
  | .grid g =>
      let extent := (← liftExcept (reference.grid prepared function 2)).extent
      if g.extent.agrees extent then
        return .grid (← liftExcept g.copy)
      return .grid (← change g extent)

/-- The value of a function for its arguments. -/
def Function.compute (fixed : Option (Extent K)) (prepared : Prepared) (function : Function)
    (arguments : List (Part K V S)) : Traced (Operand K V S) := do
  if !function.admits arguments.length then
    throw (function.countFault arguments.length)
  match function, arguments with
  | .ifThenElse, [condition, yes, no] => choose fixed condition yes no
  | .minimum, [a, b] => extremum fixed function .greater a.value b.value
  | .maximum, [a, b] => extremum fixed function .lesser a.value b.value
  | .round, [part, decimals] =>
      let grid ← liftExcept (part.grid prepared function 1)
      let decimals ← liftExcept (decimals.constant prepared function 2)
      let places ← liftExcept (Number.truncate decimals.value : Except Fault Int)
      return .grid (← liftExcept (grid.roundTo places))
  | .enlarge, [part, reference] =>
      fit prepared function part.value reference fun g extent => liftExcept (g.enlarge extent)
  | .clip, [part, reference] =>
      fit prepared function part.value reference fun g extent => g.clipOrDummy extent
  | .scale, part :: size :: methods =>
      match part.value with
      | .constant c => return .constant c
      | .grid g => rescale prepared g size.value methods
  | .boundingBox, [part] =>
      match part.value with
      | .constant c => return .constant c
      | .grid g =>
          match ← liftExcept g.boundingBox with
          | some box => return .grid box
          | none => throw (.grid .nothingLeft)
  | .cellSize, [part] =>
      let grid ← liftExcept (part.grid prepared function 1)
      return .constant (.of (Conversion.toNumber grid.cellWidth))
  | .nodata, [part, wanted] =>
      let nodata :=
        match wanted.value with
        | .constant c => c.value
        | .grid g => g.nodata
      liftExcept (part.value.withNodata nodata)
  | function, arguments => throw (function.countFault arguments.length)

end MapAlgebra.Expression
