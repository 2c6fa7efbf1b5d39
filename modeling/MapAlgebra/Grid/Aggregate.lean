import MapAlgebra.Number.Arithmetic

/-!
# Aggregates

One number for a group of cells: mean, median, extremes, the most frequent value, the boundary code
and the sum. Sums are taken in blocks, so that rounding errors stay small.
-/

namespace MapAlgebra

/-- How the cells of a group become one. -/
inductive Aggregate
  | mean
  | median
  | minimum
  | maximum
  | mostOccurring
  | boundary
  | sum
  | mostOccurringNodata
  deriving DecidableEq, Repr

namespace Aggregate

def all : List Aggregate :=
  [mean, median, minimum, maximum, mostOccurring, boundary, sum, mostOccurringNodata]

/-- The aggregate with a number. -/
def ofIndex? (index : Int) : Option Aggregate :=
  if 0 ≤ index then all[index.toNat]? else none

def label : Aggregate → String
  | mean => "Mean"
  | median => "Median"
  | minimum => "Minimum"
  | maximum => "Maximum"
  | mostOccurring => "Most_Occurring"
  | boundary => "Boundary"
  | sum => "Sum"
  | mostOccurringNodata => "Most_Occurring_Nodata"

variable {V : Type} [Number V]

/-- Adds eight partial sums pairwise. -/
def joinEight : List V → V
  | [a, b, c, d, e, f, g, h] => ((a + b) + (c + d)) + ((e + f) + (g + h))
  | values => values.foldl (· + ·) (-Number.zero)

/-- The sum of at most 128 numbers: eight running sums over blocks of eight, added pairwise, then
the numbers left over. -/
def blockSum (values : List V) : V :=
  if values.length < 8 then values.foldl (· + ·) (-Number.zero)
  else add (values.length / 8 - 1) (values.take 8) (values.drop 8)
where
  add : Nat → List V → List V → V
    | 0, sums, rest => rest.foldl (· + ·) (joinEight sums)
    | blocks + 1, sums, rest =>
        add blocks (List.zipWith (· + ·) sums (rest.take 8)) (rest.drop 8)

/-- Halves a long list, the first half a multiple of eight long, and adds the sums of the halves. -/
def total (values : List V) : V :=
  if _h : values.length ≤ 128 then blockSum values
  else
    let half := values.length / 2
    let cut := half - half % 8
    total (values.take cut) + total (values.drop cut)
termination_by values.length
decreasing_by all_goals simp only [List.length_take, List.length_drop]; omega

/-- The least number; none is a number when one of them is not. -/
def lesser (a b : V) : V :=
  if Number.isNaN a then a else if a ≤ b then a else b

def larger (a b : V) : V :=
  if Number.isNaN a then a else if b ≤ a then a else b

def least : List V → V
  | [] => Number.notANumber
  | a :: rest => rest.foldl lesser a

def largest : List V → V
  | [] => Number.notANumber
  | a :: rest => rest.foldl larger a

/-- Ascending order with what is no number last. -/
def precedes (a b : V) : Bool :=
  Number.isNaN b || (!Number.isNaN a && a ≤ b)

def count (values : List V) : V :=
  Number.ofInt values.length

def meanOf (values : List V) : V :=
  total values / count values

/-- The middle number in ascending order, or the mean of the two middle ones. -/
def medianOf (values : List V) : V :=
  if values.any Number.isNaN then Number.notANumber
  else
    let sorted := values.mergeSort precedes
    let half := values.length / 2
    meanOf ((sorted.drop (if values.length % 2 = 0 then half - 1 else half)).take
      (if values.length % 2 = 0 then 2 else 1))

/-- The number of members equal to the first of a sorted list, and the rest behind them. -/
def mostFrom (best : V) (bestCount : Nat) : List V → V
  | [] => best
  | a :: rest =>
      let run := rest.takeWhile fun b => Number.same a b
      if bestCount < run.length + 1 then
        mostFrom a (run.length + 1) (rest.dropWhile fun b => Number.same a b)
      else mostFrom best bestCount (rest.dropWhile fun b => Number.same a b)
termination_by values => values.length
decreasing_by
  all_goals
    have := (List.dropWhile_sublist (fun b => Number.same a b) (l := rest)).length_le
    simp only [List.length_cons]
    omega

/-- The most frequent number, the smallest of several. All that is no number counts as one value. -/
def mostOf (values : List V) : V :=
  mostFrom Number.notANumber 0 (values.mergeSort precedes)

/-- The least negative number when there is one: negative codes mark fixed boundaries and win over
active cells. Else the largest number. -/
def boundaryOf (values : List V) : V :=
  let negative := values.filter fun a => a < Number.zero
  if negative.isEmpty then largest values else least negative

/-- The aggregate of a group that is not empty. -/
def apply (aggregate : Aggregate) (values : List V) : V :=
  match aggregate with
  | mean => meanOf values
  | median => medianOf values
  | minimum => least values
  | maximum => largest values
  | mostOccurring | mostOccurringNodata => mostOf values
  | boundary => boundaryOf values
  | sum => total values

/-- Whether cells without data belong to the groups. -/
def countsNodata (aggregate : Aggregate) : Bool :=
  aggregate == mostOccurringNodata

end Aggregate

end MapAlgebra
