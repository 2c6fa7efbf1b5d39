import MapAlgebra.Grid.Combine
import MapAlgebra.Idf.File
import MapAlgebra.Text.Case

/-!
# Variables

A table binds names to constants and grids, one binding for a name whatever its letter case. A name
keeps its place in the table when it is bound again.
-/

namespace MapAlgebra

/-- What kind of expression a value comes from. -/
inductive Provenance
  | undefined
  | constant
  | file
  | variable
  | function
  | ifThenElse
  | arithmetic
  | complex
  deriving DecidableEq, Repr

namespace Provenance

/-- Whether a value is on disk already or needs no file. -/
def isPersisted : Provenance → Bool
  | undefined | constant | file => true
  | _ => false

def label : Provenance → String
  | undefined => "Undefined"
  | constant => "Constant"
  | file => "File"
  | «variable» => "Variable"
  | function => "Function"
  | ifThenElse => "IfThenElse"
  | arithmetic => "Arithmetic"
  | complex => "Complex"

def all : List Provenance :=
  [undefined, constant, file, «variable», function, ifThenElse, arithmetic, complex]

def ofLabel? (label : String) : Option Provenance :=
  all.find? fun provenance => provenance.label == label

end Provenance

/-- A named value with what is known of it. -/
structure Binding (K V S : Type) where
  name : Text
  value : Operand K V S
  provenance : Provenance := .undefined
  /-- The directory written before the name. -/
  folder : Option Text := none
  metadata : Option Metadata := none
  isPersisted : Bool := false

/-- Bindings in the order in which their names came, and the next free slot. -/
structure VariableTable (K V S : Type) where
  bindings : List (Binding K V S) := []
  nextSlot : Nat := 0

namespace VariableTable

variable {K V S : Type}

/-- The form of a name under which it is found. -/
def key (name : Text) : Text := Text.upper name

def get? (table : VariableTable K V S) (name : Text) : Option (Binding K V S) :=
  table.bindings.find? fun binding => key binding.name == key name

def item (table : VariableTable K V S) (name : Text) : Except Fault (Binding K V S) :=
  match table.get? name with
  | some binding => .ok binding
  | none => .error (.unbound name)

def contains (table : VariableTable K V S) (name : Text) : Bool :=
  (table.get? name).isSome

/-- A value with a slot of its own, unless it has one. -/
def keep (table : VariableTable K V S) (value : Operand K V S) :
    Operand K V S × VariableTable K V S :=
  match value.slot with
  | some _ => (value, table)
  | none => (value.atSlot table.nextSlot, { table with nextSlot := table.nextSlot + 1 })

/-- The table with a binding in place of the one of the same name. -/
def bind (table : VariableTable K V S) (binding : Binding K V S) : VariableTable K V S :=
  let (value, table) := table.keep binding.value
  let binding := { binding with value }
  if table.contains binding.name then
    { table with
      bindings := table.bindings.map fun old =>
        if key old.name == key binding.name then binding else old }
  else { table with bindings := table.bindings ++ [binding] }

/-- The names, longer ones first, so that no name is tried before one that it begins. -/
def namesLongestFirst (table : VariableTable K V S) : List Text :=
  (table.bindings.map (·.name)).mergeSort fun a b => b.length ≤ a.length

/-- Whether the value at a slot is bound. -/
def owns (table : VariableTable K V S) (slot : Option Nat) : Bool :=
  slot.isSome && table.bindings.any fun binding => binding.value.slot == slot

/-- The name of the first binding with the value at a slot. -/
def ownerName? (table : VariableTable K V S) (slot : Option Nat) : Option Text :=
  if slot.isNone then none
  else (table.bindings.find? fun binding => binding.value.slot == slot).map (·.name)

/-- The bound state of a value that may have changed since it was bound. -/
def current (table : VariableTable K V S) (value : Operand K V S) : Operand K V S :=
  match value.slot with
  | none => value
  | some slot =>
      match table.bindings.find? fun binding => binding.value.slot == some slot with
      | some binding => binding.value
      | none => value

/-- The table with another state of the value at a slot, wherever it is bound. -/
def update (table : VariableTable K V S) (value : Operand K V S) : VariableTable K V S :=
  if value.slot.isNone then table
  else
    { table with
      bindings := table.bindings.map fun binding =>
        if binding.value.slot == value.slot then { binding with value } else binding }

/-- The table with the cells of all grids given up that can be read again, and their number. -/
def releaseAll (files : FileTree) (table : VariableTable K V S) : VariableTable K V S × Nat :=
  let released := table.bindings.filter fun binding => (binding.value.release? files).isSome
  let bindings := table.bindings.map fun binding =>
    { binding with value := (binding.value.release? files).getD binding.value }
  ({ table with bindings }, released.length)

end VariableTable

end MapAlgebra
