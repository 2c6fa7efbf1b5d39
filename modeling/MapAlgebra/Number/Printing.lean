import MapAlgebra.Number.Decimal

/-!
# Double precision numbers as text

Two forms. The shortest form has the fewest digits that read back as the same number. The general
form has six significant digits without zeros at the end. Both are rounded from the exact value.
-/

namespace MapAlgebra.Printing

open Float.Model (UnpackedFloat)

/-- Whether `digits * 10 ^ grid` rounds to `magnitude * 2 ^ exponent`. The numbers that do reach
half way to the neighbours; `narrow` marks a power of two, whose lower neighbour is at half the
distance of the upper one, and the ends belong to even magnitudes. -/
def readsBack (magnitude : Nat) (exponent : Int) (narrow : Bool) (digits : Nat) (grid : Int) :
    Bool :=
  let (num, den) := Decimal.shifted digits 1 grid
  let (unitNum, unitDen) := Decimal.ofBinary 1 (exponent - 2)
  let value := num * unitDen
  let unit := den * unitNum
  let low := (4 * magnitude - if narrow then 1 else 2) * unit
  let high := (4 * magnitude + 2) * unit
  if magnitude % 2 = 0 then low ≤ value && value ≤ high else low < value && value < high

/-- The first grid, from coarse to fine, on which a neighbour of the value reads back; of two
neighbours the nearer, in a tie the even one. -/
def shortestFrom (magnitude : Nat) (exponent : Int) (narrow : Bool) (top : Int) :
    (budget count : Nat) → Nat × Int
  | 0, count =>
      let grid := top - count + 1
      let (num, den) := Decimal.ofBinary magnitude exponent
      let (scaledNum, scaledDen) := Decimal.shifted num den (-grid)
      (Decimal.roundHalfEven scaledNum scaledDen, grid)
  | budget + 1, count =>
      let grid := top - count + 1
      let (num, den) := Decimal.ofBinary magnitude exponent
      let (scaledNum, scaledDen) := Decimal.shifted num den (-grid)
      let below := scaledNum / scaledDen
      let nearest := Decimal.roundHalfEven scaledNum scaledDen
      let other := if nearest = below then below + 1 else below
      if readsBack magnitude exponent narrow nearest grid then (nearest, grid)
      else if readsBack magnitude exponent narrow other grid then (other, grid)
      else shortestFrom magnitude exponent narrow top budget (count + 1)

/-- Digits and decimal exponent of the shortest form of a positive number. -/
def shortestDigits (magnitude : Nat) (exponent : Int) : List Char × Int :=
  let (num, den) := Decimal.ofBinary magnitude exponent
  let narrow := magnitude = Nat.pow 2 52 && -1074 < exponent
  let (digits, grid) := shortestFrom magnitude exponent narrow (Decimal.exponentOf num den) 16 1
  let text := Nat.toDigits 10 digits
  (Decimal.stripZeros text, grid + text.length - 1)

/-- Six significant digits and decimal exponent of a positive number. -/
def sixDigits (magnitude : Nat) (exponent : Int) : List Char × Int :=
  let (num, den) := Decimal.ofBinary magnitude exponent
  let top := Decimal.exponentOf num den
  let (scaledNum, scaledDen) := Decimal.shifted num den (5 - top)
  let text := Nat.toDigits 10 (Decimal.roundHalfEven scaledNum scaledDen)
  (Decimal.stripZeros text, top + text.length - 6)

/-- Numbers below `10 ^ -4` and from `10 ^ limit` on are written with an exponent. -/
def layout (limit : Int) (digits : List Char) (exponent : Int) : List Char :=
  if -4 ≤ exponent && exponent < limit then Decimal.positional digits exponent
  else Decimal.scientific digits exponent

private def signed (sign : UnpackedFloat.Sign) (text : List Char) : String :=
  match sign with
  | .negative => String.ofList ('-' :: text)
  | .positive => String.ofList text

/-- The shortest form: positional below `10 ^ 16`, a whole number keeps one decimal. -/
def shortest (x : Float) : String :=
  match x.toModel.unpack with
  | .notANumber => "nan"
  | .infinity sign => signed sign ['i', 'n', 'f']
  | .zero sign => signed sign ['0', '.', '0']
  | .finite sign magnitude exponent _ =>
      let (digits, top) := shortestDigits magnitude exponent
      let text := layout 16 digits top
      signed sign <|
        if text.contains '.' || text.contains 'e' then text else text ++ ['.', '0']

/-- The general form: positional below a million. -/
def general (x : Float) : String :=
  match x.toModel.unpack with
  | .notANumber => "nan"
  | .infinity sign => signed sign ['i', 'n', 'f']
  | .zero sign => signed sign ['0']
  | .finite sign magnitude exponent _ =>
      let (digits, top) := sixDigits magnitude exponent
      signed sign (layout 6 digits top)

end MapAlgebra.Printing
