import MapAlgebra.Extent
import MapAlgebra.Files.Tree

/-!
# Settings

The options of a run. They are chosen once and do not change while it goes on.
-/

namespace MapAlgebra

structure Settings (K V : Type) where
  /-- Where relative file references start. -/
  base : Option Path := none
  /-- Where result grids go; the base when there is none. -/
  output : Option Path := none
  /-- A fixed extent for all operands. -/
  extent : Option (Extent K) := none
  /-- Whether cells without data take part in calculations. -/
  nodataAsValue : Bool := false
  /-- The value they take then; the NoData value of their grid when there is none. -/
  nodata : Option V := none
  debug : Bool := false
  writeIntermediate : Bool := false
  verbose : Bool := false
  /-- Whether a missing file ends the run gracefully. -/
  quiet : Bool := false
  addMetadata : Bool := false
  roundResults : Bool := false
  decimals : Int := -1
  maxDepth : Int := 100

namespace Settings

variable {K V : Type}

/-- Refuses options that cannot be used together. -/
def check (settings : Settings K V) : Except SettingsFault (Settings K V) :=
  if settings.maxDepth < 1 then .error .depthBelowOne
  else if settings.roundResults && settings.decimals < 0 then .error .decimalsMissing
  else .ok settings

/-- Whether results of parts of an expression are recorded. -/
def traces (settings : Settings K V) : Bool :=
  settings.debug || settings.writeIntermediate

/-- The path a file reference stands for. -/
def resolveInput (settings : Settings K V) (name : Text) : Path :=
  let path := Path.ofText name
  match settings.base with
  | some base => base.join path
  | none => path

/-- The directory of result grids. -/
def outputDirectory (settings : Settings K V) (files : FileTree) : Path :=
  match settings.output, settings.base with
  | some path, _ => path
  | none, some path => path
  | none, none => files.currentPath

end Settings

end MapAlgebra
