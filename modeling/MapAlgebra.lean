import MapAlgebra.CommandLine.Program
import MapAlgebra.Grid.Description
import MapAlgebra.Main
import MapAlgebra.Number.Double
import MapAlgebra.Proofs.Merging
import MapAlgebra.Proofs.Precedence
import MapAlgebra.Proofs.Consistency
import MapAlgebra.Proofs.KeptExtent
import MapAlgebra.Proofs.Places
import MapAlgebra.Proofs.Overlays
import MapAlgebra.Proofs.Shapes
import MapAlgebra.Proofs.Fractions
import MapAlgebra.Proofs.LoopHeads
import MapAlgebra.Proofs.RoundTrip
import MapAlgebra.Proofs.Ordering
import MapAlgebra.Proofs.Run
import MapAlgebra.Proofs.Grammar
import MapAlgebra.Proofs.Meaning
import MapAlgebra.Proofs.Parsing
import MapAlgebra.Proofs.GridFile
import MapAlgebra.Proofs.Files
import MapAlgebra.Proofs.Widening
import MapAlgebra.Proofs.Unrolling
import MapAlgebra.Proofs.Writes
import MapAlgebra.Proofs.Bindings
import MapAlgebra.Proofs.Origin
import MapAlgebra.Proofs.Advances
import MapAlgebra.Proofs.Alone
import MapAlgebra.Proofs.Assignments
import MapAlgebra.Proofs.Settled
import MapAlgebra.Proofs.Rereading
import MapAlgebra.Proofs.Backing
import MapAlgebra.Proofs.Pairs
import MapAlgebra.Proofs.Substitutes
import MapAlgebra.Proofs.Faults
import MapAlgebra.Proofs.Moves
import MapAlgebra.Proofs.Stops
import MapAlgebra.Proofs.FailedWrites
import MapAlgebra.Proofs.ExitCodes
import MapAlgebra.Proofs.Lattices
import MapAlgebra.Proofs.Combinations
import MapAlgebra.Proofs.CommonExtents
import MapAlgebra.Proofs.ResultExtents
import MapAlgebra.Proofs.Agreement
import MapAlgebra.Proofs.Likeness
import MapAlgebra.Proofs.Substitution
import MapAlgebra.Proofs.Constants
import MapAlgebra.Proofs.Identity
import MapAlgebra.Proofs.Twins
import MapAlgebra.Proofs.Words
import MapAlgebra.Proofs.Marks
import MapAlgebra.Proofs.Mentions
import MapAlgebra.Proofs.Trails
import MapAlgebra.Proofs.Beside
import MapAlgebra.Proofs.Tracing
import MapAlgebra.Proofs.TracedRuns
import MapAlgebra.Proofs.Selection
import MapAlgebra.Proofs.Comparisons
import MapAlgebra.Proofs.Replacement
import MapAlgebra.Proofs.Calls
import MapAlgebra.Proofs.NamedValues
import MapAlgebra.Proofs.Extrema
import MapAlgebra.Proofs.Spots
import MapAlgebra.Proofs.Visits
import MapAlgebra.Proofs.Boundaries
import MapAlgebra.Proofs.Choices
import MapAlgebra.Proofs.Points
import MapAlgebra.Proofs.Placements
import MapAlgebra.Proofs.Offsets
import MapAlgebra.Proofs.Reach
import MapAlgebra.Proofs.Middles
import MapAlgebra.Proofs.Resampling
import MapAlgebra.Proofs.Broadcasts
import MapAlgebra.Proofs.Groups
import MapAlgebra.Proofs.Aggregates
import MapAlgebra.Proofs.Coarsening
import MapAlgebra.Proofs.Blocks
import MapAlgebra.Proofs.Enlarging
import MapAlgebra.Proofs.Trimming
import MapAlgebra.Proofs.Redefining
import MapAlgebra.Proofs.Depths
import MapAlgebra.Proofs.Limits
import MapAlgebra.Proofs.Numbers
import MapAlgebra.Proofs.Restoring
import MapAlgebra.Proofs.Keyword
import MapAlgebra.Proofs.LetterCase
import MapAlgebra.Proofs.Blanks
import MapAlgebra.Proofs.EqualSigns
import MapAlgebra.Proofs.HeadParts
import MapAlgebra.Proofs.PlainLines
import MapAlgebra.Proofs.HeadBlanks
import MapAlgebra.Proofs.Closings
import MapAlgebra.Proofs.ContinuedLines
