import MapAlgebra.Number.Arithmetic

/-!
# Operators

The thirteen binary operators, their signs, the order in which they are merged, and what they do
with two numbers. Comparisons and the logical operators give one for true and zero for false.
-/

namespace MapAlgebra

inductive Operator
  | power
  | multiply
  | divide
  | add
  | subtract
  | equal
  | notEqual
  | greater
  | greaterEqual
  | lesser
  | lesserEqual
  | both
  | either
  deriving DecidableEq, Repr

namespace Operator

def all : List Operator :=
  [power, multiply, divide, add, subtract, equal, notEqual, greater, greaterEqual, lesser,
    lesserEqual, both, either]

def sign : Operator → Text
  | power => ['^']
  | multiply => ['*']
  | divide => ['/']
  | add => ['+']
  | subtract => ['-']
  | equal => ['=', '=']
  | notEqual => ['!', '=']
  | greater => ['>']
  | greaterEqual => ['>', '=']
  | lesser => ['<']
  | lesserEqual => ['<', '=']
  | both => ['&', '&']
  | either => ['|', '|']

def ofSign? (text : Text) : Option Operator :=
  all.find? fun op => op.sign == text

/-- Characters that can begin an operator. -/
def startsSign (c : Char) : Bool :=
  ['^', '*', '/', '+', '-', '=', '!', '<', '>', '&', '|'].contains c

/-- Operators of higher priority are merged first. The logical operators share the lowest one, so
that comparisons on both sides are merged before them. -/
def priority : Operator → Nat
  | power => 4
  | multiply | divide => 3
  | add | subtract => 2
  | equal | notEqual | greater | greaterEqual | lesser | lesserEqual => 1
  | both | either => 0

/-- Arithmetic operators have NoData results; the others never do. -/
def isArithmetic : Operator → Bool
  | power | multiply | divide | add | subtract => true
  | _ => false

variable {V : Type} [Number V]

/-- The result for two numbers. A `uniform` right side is the same number for all cells. -/
def calculate (op : Operator) (uniform : Bool) (a b : V) : V :=
  match op with
  | power => if uniform then Number.powerBy b a else Number.power a b
  | multiply => a * b
  | divide => a / b
  | add => a + b
  | subtract => a - b
  | equal => Number.ofBool (a == b)
  | notEqual => Number.ofBool !(a == b)
  | greater => Number.ofBool (b < a)
  | greaterEqual => Number.ofBool (b ≤ a)
  | lesser => Number.ofBool (a < b)
  | lesserEqual => Number.ofBool (a ≤ b)
  | both => Number.ofBool (Number.isTrue a && Number.isTrue b)
  | either => Number.ofBool (Number.isTrue a || Number.isTrue b)

end Operator

end MapAlgebra
